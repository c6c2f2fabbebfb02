import Columnar.Proofs.Fetch.Outputs

/-!
# What a plan keeps

A plan keeps exactly the requests that can be resolved (`Plan.resolved_of_root`): those that are
present and name a declared relation with columns to join on, in the order in which they were
requested, and none below a relation that is aggregated. Whatever else is left out is warned about
once. `Plan.Entered` lists what planning one request can come to, with its warnings; the rest is the
induction over the depth.
-/

namespace Columnar

/-- Behind an answer that is there the rest goes on. -/
theorem Traced.liftM_ok_bind {α β : Type} (a : α) (f : α → Traced β) :
    (liftM (Except.ok a : Except Failure α) : Traced α) >>= f = f a := rfl

/-- Behind an answer the rest goes on. -/
theorem Traced.bind_of_result {α β : Type} {x : Traced α} {a : α} (h : x.result = .ok a)
    (f : α → Traced β) : x >>= f = ⟨x.log ++ (f a).log, (f a).result⟩ := by
  obtain ⟨log, result⟩ := x
  cases h
  rfl

/-- The relations requested below. -/
def FindOptions.below (options : FindOptions) : List (String × Choice) := options.related.getD []

/-- A relation with columns to join on. -/
def Relation.isJoined (c : Catalog) (r : Relation) : Bool :=
  match r.joinCondition? c with
  | .ok (some _) => true
  | _ => false

theorem Relation.isJoined_eq {c : Catalog} {r : Relation} {condition? : Option Expr}
    (h : r.joinCondition? c = .ok condition?) : r.isJoined c = condition?.isSome := by
  rw [isJoined, h]
  cases condition? <;> rfl

/-- The level for a relation that is requested with options, below one whose column names begin with
a stem. -/
def Relation.level (c : Catalog) (relation : Relation) (stem name : String) (condition : Expr)
    (options : FindOptions) : Level :=
  { name, kind := relation.kind, table := c.table relation.target, condition, options
    stem := Plan.childStem stem name
    aggregated := relation.kind == .many && stem = "" }

namespace Plan

/-! ### Requests -/

/-- The declared relation that a request names. -/
def relation? (c : Catalog) (id : TableId) (request : String × Choice) : Option Relation :=
  if request.2.isNamed then Keyed.find? request.1 (c.entry id).relations else none

/-- Whether a request on a table is kept. -/
def resolves (c : Catalog) (id : TableId) (request : String × Choice) : Bool :=
  request.2.isPresent && (relation? c id request).any (·.isJoined c)

/-- What the column names at the end of a path begin with. -/
def stemAlong (path : List String) : String := path.foldl childStem ""

theorem stemAlong_concat (path : List String) (name : String) :
    stemAlong (path ++ [name]) = childStem (stemAlong path) name := by
  rw [stemAlong, List.foldl_append]
  rfl

/-- Only the names at the root stand without a stem. -/
theorem stemAlong_eq_empty {path : List String} : stemAlong path = "" ↔ path = [] := by
  constructor
  · intro h
    cases List.eq_nil_or_concat path with
    | inl hnil => exact hnil
    | inr hconcat =>
      obtain ⟨before, name, rfl⟩ := hconcat
      rw [List.concat_eq_append, stemAlong_concat, childStem] at h
      have hlength := congrArg String.length h
      split at hlength <;> simp [String.length_append] at hlength
  · rintro rfl
    rfl

/-! ### Warnings -/

/-- A request that names no relation is left out. -/
def unknownText (t : Table) (name : String) : String :=
  s!"Table `{t.name}` has no relation `{name}`; skipped"

/-- A relation without columns to join on is left out. -/
def unjoinedText (t : Table) (name : String) : String :=
  s!"Relation `{name}` of `{t.name}` declares no join fields; skipped"

/-- What is requested below an aggregated relation is left out. -/
def nestedText (t : Table) (name : String) (related : List (String × Choice)) : String :=
  s!"Relations nested under aggregated relation `{name}` of `{t.name}` are not "
    ++ "supported; skipped: " ++ ", ".intercalate (Keyed.keys related)

/-- The warnings for a request on a table, at the root or not; `below` has those for the requests
below it. -/
def warningsOf (below : TableId → List (String × Choice) → List String) (c : Catalog)
    (id : TableId) (atRoot : Bool) (request : String × Choice) : List String :=
  if !request.2.isPresent then []
  else match relation? c id request with
    | none => [unknownText (c.table id) request.1]
    | some relation =>
      if !relation.isJoined c then [unjoinedText (c.table id) request.1]
      else match request.2.options with
        | .error _ => []
        | .ok options =>
          if atRoot && relation.kind == .many then
            if options.below.isEmpty then []
            else [nestedText (c.table id) request.1 options.below]
          else below relation.target options.below

/-- The warnings for requests on a table, below which so many levels may follow: one for each
request that names no relation, for each that names one without columns to join on, and for each
aggregated relation below which something is requested. -/
def warnings (c : Catalog) : (depth : Nat) → TableId → (atRoot : Bool) →
    List (String × Choice) → List String
  | 0, _, _, _ => []
  | depth + 1, id, atRoot, requests =>
    requests.flatMap (warningsOf (fun id ↦ warnings c depth id false) c id atRoot)

end Plan

/-! ### Resolved relations -/

/-- The level at the end of a path for a request that names a relation. -/
structure Level.Resolves (c : Catalog) (id : TableId) (path : List String)
    (request : String × Choice) (relation : Relation) (level : Level) : Prop where
  declared : Plan.relation? c id request = some relation
  name : level.name = request.1
  options : request.2.options = .ok level.options
  kind : level.kind = relation.kind
  table : level.table = c.table relation.target
  condition : relation.joinCondition? c = .ok (some level.condition)
  stem : level.stem = Plan.stemAlong (path ++ [level.name])
  aggregated : level.aggregated = true ↔ path = [] ∧ relation.kind = .many
  depth : path.length + 1 ≤ Plan.maxDepth

namespace Node

mutual

/-- A relation at the end of a path that is the one requested on a table, with those below it. -/
def ResolvesAt (c : Catalog) (id : TableId) (path : List String) :
    Node → String × Choice → Prop
  | .mk level children, request => ∃ relation, level.Resolves c id path request relation ∧
      if level.aggregated then children = []
      else AllResolve c relation.target (path ++ [level.name]) children
        (level.options.below.filter (Plan.resolves c relation.target))

/-- Relations at the end of a path that are those requested on a table, one by one. -/
def AllResolve (c : Catalog) (id : TableId) (path : List String) :
    List Node → List (String × Choice) → Prop
  | [], requests => requests = []
  | n :: rest, requests => ∃ request others, requests = request :: others ∧
      n.ResolvesAt c id path request ∧ AllResolve c id path rest others

end

end Node

namespace Plan

/-- The relations below a requested one of a table. Where it is aggregated there are none, and those
that are requested are warned about. -/
def under (below : TableId → String → List (String × Choice) → Traced (List Node)) (t : Table)
    (relation : Relation) (stem name : String) (options : FindOptions) : Traced (List Node) :=
  if (relation.kind == .many && stem = "") && !options.below.isEmpty then do
    Traced.record .warning (nestedText t name options.below)
    pure []
  else below relation.target (childStem stem name) options.below

/-- What planning one request comes to: nothing or a relation, and what is logged. -/
inductive Entered (c : Catalog)
    (below : TableId → String → List (String × Choice) → Traced (List Node)) (id : TableId)
    (stem : String) (request : String × Choice) : Option Node → Log → Prop
  | absent (h : request.2.isPresent = false) : Entered c below id stem request none []
  | unknown (hpresent : request.2.isPresent = true) (h : relation? c id request = none) :
      Entered c below id stem request none [⟨.warning, unknownText (c.table id) request.1⟩]
  | unjoined {relation : Relation} (hpresent : request.2.isPresent = true)
      (hdeclared : relation? c id request = some relation)
      (h : relation.joinCondition? c = .ok none) :
      Entered c below id stem request none [⟨.warning, unjoinedText (c.table id) request.1⟩]
  | kept {relation : Relation} {condition : Expr} {options : FindOptions} {children : List Node}
      {log : Log} (hpresent : request.2.isPresent = true)
      (hdeclared : relation? c id request = some relation)
      (hcondition : relation.joinCondition? c = .ok (some condition))
      (hoptions : request.2.options = .ok options)
      (h : if relation.kind = .many ∧ stem = "" then
          children = [] ∧ log = if options.below.isEmpty then []
            else [⟨.warning, nestedText (c.table id) request.1 options.below⟩]
        else (below relation.target (childStem stem request.1) options.below).result =
            .ok children ∧
          log = (below relation.target (childStem stem request.1) options.below).log) :
      Entered c below id stem request (some (.mk
        { name := request.1, kind := relation.kind, table := c.table relation.target, condition,
          options, stem := childStem stem request.1
          aggregated := relation.kind == .many && stem = "" } children)) log

variable {c : Catalog} {below : TableId → String → List (String × Choice) → Traced (List Node)}
  {id : TableId} {stem : String} {request : String × Choice} {n? : Option Node}

private theorem find?_declared (c : Catalog) (id : TableId) (request : String × Choice) :
    Keyed.find? request.1 (if request.2.isNamed then (c.entry id).relations else []) =
      relation? c id request := by
  unfold relation?
  split <;> rfl

/-- Below an aggregated relation nothing is planned, and below any other what is requested. -/
private theorem of_under (hbelow : ∀ id stem, below id stem [] = pure []) {t : Table}
    {relation : Relation} {name : String} {options : FindOptions} {children : List Node}
    (h : (under below t relation stem name options).result = .ok children) :
    if relation.kind = .many ∧ stem = "" then
      children = [] ∧ (under below t relation stem name options).log =
        if options.below.isEmpty then [] else [⟨.warning, nestedText t name options.below⟩]
    else (below relation.target (childStem stem name) options.below).result = .ok children ∧
      (under below t relation stem name options).log =
        (below relation.target (childStem stem name) options.below).log := by
  unfold under at h ⊢
  by_cases haggregated : relation.kind = .many ∧ stem = ""
  · rw [if_pos haggregated]
    rcases hrelated : options.below with _ | ⟨first, others⟩ <;>
      simp only [hrelated, haggregated, hbelow] at h ⊢ <;>
      exact ⟨(Except.ok.inj h).symm, rfl⟩
  · have hnot : (relation.kind == .many && decide (stem = "")) = false := by
      simpa using haggregated
    rw [if_neg haggregated]
    simp only [hnot] at h ⊢
    exact ⟨h, rfl⟩

/-- Nothing is planned for a request that is not present. -/
theorem entry_of_absent (h : request.2.isPresent = false) :
    entry c below id stem request = pure none := by
  unfold entry
  simp only [h]
  rfl

/-- A request that can be resolved is planned with the relations below it. -/
theorem entry_eq {relation : Relation} {condition : Expr} {options : FindOptions}
    (hpresent : request.2.isPresent = true) (hdeclared : relation? c id request = some relation)
    (hcondition : relation.joinCondition? c = .ok (some condition))
    (hoptions : request.2.options = .ok options) (hunset : options.setsStrategy = false) :
    entry c below id stem request = do
      let children ← under below (c.table id) relation stem request.1 options
      return some (.mk (relation.level c stem request.1 condition options) children) := by
  unfold entry
  simp only [find?_declared, hpresent, Bool.not_true, Bool.false_eq_true, ↓reduceIte, hdeclared,
    hcondition, Traced.liftM_ok_bind, hoptions, hunset]
  unfold under FindOptions.below
  split <;> rfl

/-- A request that can be resolved is planned with what is below it, unless it is aggregated. -/
private theorem entered_kept (hbelow : ∀ id stem, below id stem [] = pure [])
    {relation : Relation} {condition : Expr} {options : FindOptions}
    (hpresent : request.2.isPresent = true) (hdeclared : relation? c id request = some relation)
    (hcondition : relation.joinCondition? c = .ok (some condition))
    (hoptions : request.2.options = .ok options)
    (h : (entry c below id stem request).result = .ok n?) :
    Entered c below id stem request n? (entry c below id stem request).log := by
  cases hstrategy : options.setsStrategy with
  | true =>
    unfold entry at h
    simp only [find?_declared, hpresent, hdeclared, hcondition, Traced.liftM_ok_bind, hoptions,
      hstrategy] at h
    cases h
  | false =>
    rw [entry_eq hpresent hdeclared hcondition hoptions hstrategy] at h ⊢
    obtain ⟨children, hchildren, h⟩ := Traced.result_bind_eq_ok.mp h
    cases h
    rw [Traced.bind_of_result hchildren]
    exact .kept hpresent hdeclared hcondition hoptions (by simpa using of_under hbelow hchildren)

/-- Planning one request comes to one of these. -/
theorem entered (hbelow : ∀ id stem, below id stem [] = pure [])
    (h : (entry c below id stem request).result = .ok n?) :
    Entered c below id stem request n? (entry c below id stem request).log := by
  cases hpresent : request.2.isPresent with
  | false =>
    rw [entry_of_absent hpresent] at h ⊢
    cases h
    exact .absent hpresent
  | true =>
    cases hdeclared : relation? c id request with
    | none =>
      unfold entry at h ⊢
      simp only [hpresent, find?_declared, hdeclared] at h ⊢
      cases h
      exact .unknown hpresent hdeclared
    | some relation =>
      rcases hcondition : relation.joinCondition? c with e | _ | condition
      · unfold entry at h
        simp only [hpresent, find?_declared, hdeclared, hcondition] at h
        cases h
      · unfold entry at h ⊢
        simp only [hpresent, find?_declared, hdeclared, hcondition] at h ⊢
        cases h
        exact .unjoined hpresent hdeclared hcondition
      · rcases hoptions : request.2.options with e | options
        · unfold entry at h
          simp only [hpresent, find?_declared, hdeclared, hcondition, hoptions] at h
          cases h
        · exact entered_kept hbelow hpresent hdeclared hcondition hoptions h

/-! ### All requests -/

/-- What a plan of requests on a table at the end of a path is to be: the requests that can be
resolved, and the warnings for the others. -/
private def Keeps (c : Catalog) (depth : Nat) (id : TableId) (path : List String)
    (requests : List (String × Choice)) : Prop :=
  ∀ ns, (nodes c depth id (stemAlong path) requests).result = .ok ns →
    Node.AllResolve c id path ns (requests.filter (resolves c id)) ∧
      (nodes c depth id (stemAlong path) requests).log =
        (warnings c depth id path.isEmpty requests).map (LogRecord.mk .warning)

/-- One request is kept when it can be resolved, and it is warned about otherwise. -/
private theorem resolvesAt_of_entered {depth : Nat} {path : List String} {log : Log}
    (hdepth : path.length + (depth + 1) = maxDepth)
    (hbelow : ∀ id path requests, path.length + depth = maxDepth → Keeps c depth id path requests)
    (h : Entered c (nodes c depth) id (stemAlong path) request n? log) :
    (∀ n ∈ n?, n.ResolvesAt c id path request) ∧ n?.isSome = resolves c id request ∧
      log = (warningsOf (fun id ↦ warnings c depth id false) c id path.isEmpty request).map
        (LogRecord.mk .warning) := by
  cases h with
  | absent habsent => simp [resolves, warningsOf, habsent]
  | unknown hpresent hnone => simp [resolves, warningsOf, hpresent, hnone]
  | unjoined hpresent hdeclared hnone =>
    simp [resolves, warningsOf, hpresent, hdeclared, Relation.isJoined_eq hnone]
  | @kept relation condition options children _ hpresent hdeclared hcondition hoptions hrest =>
    have hjoined : relation.isJoined c = true := Relation.isJoined_eq hcondition
    have hresolves : resolves c id request = true := by
      simp [resolves, hpresent, hdeclared, hjoined]
    have haggregated : (relation.kind == .many && decide (stemAlong path = "")) = true ↔
        path = [] ∧ relation.kind = .many := by
      simp [stemAlong_eq_empty, and_comm]
    have hwarnings : warningsOf (fun id ↦ warnings c depth id false) c id path.isEmpty request =
        if path = [] ∧ relation.kind = .many then
          if options.below.isEmpty then []
          else [nestedText (c.table id) request.1 options.below]
        else warnings c depth relation.target false options.below := by
      simp [warningsOf, hpresent, hdeclared, hjoined, hoptions, List.isEmpty_iff]
    have hlength : (path ++ [request.1]).length + depth = maxDepth := by
      rw [List.length_append, List.length_singleton]
      omega
    have hkeeps := hbelow relation.target (path ++ [request.1]) options.below hlength
    have hinner : (path ++ [request.1]).isEmpty = false := by simp
    rw [Keeps, stemAlong_concat, hinner] at hkeeps
    rw [hwarnings]
    refine ⟨?_, by simp [hresolves], ?_⟩
    · intro n hn
      cases hn
      refine ⟨relation,
        ⟨hdeclared, rfl, hoptions, rfl, rfl, hcondition, ?_, haggregated, by omega⟩, ?_⟩
      · exact (stemAlong_concat path request.1).symm
      · split
        · next hmany =>
          rw [if_pos ⟨(haggregated.mp hmany).2, stemAlong_eq_empty.mpr (haggregated.mp hmany).1⟩]
            at hrest
          exact hrest.1
        · next hnot =>
          rw [if_neg fun h ↦ hnot (haggregated.mpr ⟨stemAlong_eq_empty.mp h.2, h.1⟩)] at hrest
          exact (hkeeps children hrest.1).1
    · by_cases hroot : path = [] ∧ relation.kind = .many
      · rw [if_pos ⟨hroot.2, stemAlong_eq_empty.mpr hroot.1⟩] at hrest
        rw [if_pos hroot, hrest.2]
        split <;> rfl
      · rw [if_neg fun h ↦ hroot ⟨stemAlong_eq_empty.mp h.2, h.1⟩] at hrest
        rw [if_neg hroot, hrest.2]
        exact (hkeeps children hrest.1).2

/-- Requests are kept one by one. -/
private theorem keeps_of_entered {path : List String}
    {requests : List (String × Choice)} {planned : List (Option Node)}
    (h : List.Forall₂ (fun request n? ↦ (∀ n ∈ n?, n.ResolvesAt c id path request) ∧
      n?.isSome = resolves c id request) requests planned) :
    Node.AllResolve c id path (planned.filterMap fun n? ↦ n?)
      (requests.filter (resolves c id)) := by
  induction h with
  | nil => rfl
  | @cons request n? requests planned hrequest _ ih =>
    obtain ⟨hresolves, hsome⟩ := hrequest
    cases n? with
    | none =>
      rw [List.filterMap_cons, List.filter_cons_of_neg (by simp [← hsome])]
      exact ih
    | some n =>
      rw [List.filterMap_cons, List.filter_cons_of_pos (by simp [← hsome])]
      exact ⟨request, _, rfl, hresolves n rfl, ih⟩

private theorem keeps (c : Catalog) (depth : Nat) (id : TableId) (path : List String)
    (requests : List (String × Choice)) (hdepth : path.length + depth = maxDepth) :
    Keeps c depth id path requests := by
  induction depth generalizing id path requests with
  | zero =>
    intro ns h
    unfold nodes at h ⊢
    split at h
    · next hempty =>
      cases h
      rw [List.isEmpty_iff.mp hempty]
      exact ⟨rfl, rfl⟩
    · cases h
  | succ depth ih =>
    intro ns h
    obtain ⟨planned, hplanned, hns⟩ := Traced.result_bind_eq_ok.mp h
    cases hns
    have hentries := Succeeding.forall₂_of_mapM ((Traced.result_mapM ..).symm.trans hplanned)
    have hbelow (id : TableId) (stem : String) : nodes c depth id stem [] = pure [] :=
      nodes_nil c depth id stem
    have hentered {request : String × Choice} {n? : Option Node}
        (h : (entry c (nodes c depth) id (stemAlong path) request).result = .ok n?) :=
      resolvesAt_of_entered hdepth (fun id path requests ↦ ih id path requests)
        (entered hbelow h)
    refine ⟨keeps_of_entered (hentries.imp fun request n? h ↦ ?_), ?_⟩
    · exact ⟨(hentered h).1, (hentered h).2.1⟩
    · show (_ >>= _ : Traced (List Node)).log = _
      rw [Traced.log_bind, hplanned, Traced.log_mapM hplanned, warnings, List.map_flatMap]
      refine (List.append_nil _).trans (List.flatMap_congr fun request hrequest ↦ ?_)
      obtain ⟨n?, -, hentry⟩ := Succeeding.exists_of_forall₂ hentries hrequest
      exact (hentered hentry).2.2

end Plan

/-! ### Joins -/

namespace Node

mutual

/-- A relation of a table and those below it as far as they are joined, each with the table above
it. -/
def joinedOf (source : Table) : Node → List (Table × Level)
  | .mk level children => (source, level) ::
      if level.aggregated then [] else joined level.table children

/-- The relations of a table that are joined, in the order of the tree, each with the table above
it. -/
def joined (source : Table) : List Node → List (Table × Level)
  | [] => []
  | n :: rest => n.joinedOf source ++ joined source rest

end

theorem joins_eq_map (strategy : JoinStrategy) (source : Table) (nodes : List Node) :
    joins strategy source nodes = (joined source nodes).map fun j ↦ j.2.join strategy j.1 := by
  induction nodes using forest_induction generalizing source with
  | nil => rfl
  | cons level children rest ihChildren ihRest =>
    rw [joins, joinsOf, joined, joinedOf, List.map_append, ihRest, List.map_cons]
    split
    · rfl
    · rw [ihChildren]

/-- Rows are multiplied by the joins of relations to many that are not aggregated. -/
theorem anyMultiplies_iff {nodes : List Node} (h : AggregatesLeaves nodes) (source : Table) :
    anyMultiplies nodes = true ↔
      ∃ j ∈ joined source nodes, j.2.kind = .many ∧ j.2.aggregated = false := by
  induction nodes using forest_induction generalizing source with
  | nil => simp [anyMultiplies, joined]
  | cons level children rest ihChildren ihRest =>
    obtain ⟨⟨hlevel, hchildren⟩, hrest⟩ := h
    have hhere := ihChildren hchildren level.table
    have hthere := ihRest hrest source
    rw [anyMultiplies, multiplies, joined, joinedOf]
    cases haggregated : level.aggregated with
    | true =>
      have hnone : children = [] := (hlevel haggregated).2
      simp [hnone, anyMultiplies, haggregated, hthere]
    | false =>
      simp only [Bool.not_false, Bool.and_true, Bool.or_eq_true, beq_iff_eq, hhere, hthere,
        Bool.false_eq_true, ↓reduceIte, List.mem_append, List.mem_cons]
      constructor
      · rintro ((hmany | ⟨j, hj, hmultiplies⟩) | ⟨j, hj, hmultiplies⟩)
        · exact ⟨(source, level), .inl (.inl rfl), hmany, haggregated⟩
        · exact ⟨j, .inl (.inr hj), hmultiplies⟩
        · exact ⟨j, .inr hj, hmultiplies⟩
      · rintro ⟨j, (rfl | hj) | hj, hmultiplies⟩
        · exact .inl (.inl hmultiplies.1)
        · exact .inl (.inr ⟨j, hj, hmultiplies⟩)
        · exact .inr ⟨j, hj, hmultiplies⟩

theorem anyMultiplies_eq_any (nodes : List Node) :
    anyMultiplies nodes = nodes.any multiplies := by
  induction nodes with
  | nil => rfl
  | cons n rest ih => rw [anyMultiplies, List.any_cons, ih]

end Node

/-- The joins that a draft collects for the relations of a table. -/
theorem Draft.joins_of_addAll {strategy : JoinStrategy} {source : Table} {nodes : List Node}
    {d : Draft} (h : addAll strategy source nodes (({} : Draft).addColumns "" source) = .ok d) :
    d.joins = (Node.joined source nodes).map fun j ↦ j.2.join strategy j.1 := by
  have hnone : ({} : Draft).selection = Keyed.ofList [] := rfl
  rw [Draft.addColumns_eq "" source hnone] at h
  rw [Draft.addAll_eq rfl h, ← Node.joins_eq_map]
  rfl

/-- A plan keeps exactly the requests that can be resolved, each relation with the data of the one
that is declared, the stem of its path and nothing below it where it is aggregated. Each request
that is left out, except where nothing is requested, is warned about once, and so are the requests
below each aggregated relation. A relation multiplies rows exactly where a join is collected for one
to many that is not aggregated. -/
theorem Plan.resolved_of_root {c : Catalog} {id : TableId} {requests : List (String × Choice)}
    {nodes : List Node} (h : (root c id requests).result = .ok nodes) :
    Node.AllResolve c id [] nodes (requests.filter (resolves c id)) ∧
      (root c id requests).log =
        (warnings c maxDepth id true requests).map (LogRecord.mk .warning) ∧
      (∀ source, (∃ n ∈ nodes, n.multiplies = true) ↔
        ∃ j ∈ Node.joined source nodes, j.2.kind = .many ∧ j.2.aggregated = false) ∧
      ∀ strategy source d,
        addAll strategy source nodes (({} : Draft).addColumns "" source) = .ok d →
          d.joins = (Node.joined source nodes).map fun j ↦ j.2.join strategy j.1 := by
  obtain ⟨hresolve, hlog⟩ := keeps c maxDepth id [] requests rfl nodes h
  refine ⟨hresolve, hlog, fun source ↦ ?_, fun strategy source d ↦ Draft.joins_of_addAll⟩
  rw [← Node.anyMultiplies_iff (aggregatesLeaves_of_root h) source, Node.anyMultiplies_eq_any,
    List.any_eq_true]

/-! ### Workers in teams -/

private def numbered (table name : String) : Column :=
  { name, type := "UInt64", table := some table }

private def workersAndTeams : Catalog :=
  { entries := #[
      { table := { name := "workers", columns := [("id", numbered "workers" "id")] },
        relations := [
          ("team", { kind := .one, target := 1, fields := [numbered "workers" "id"],
                     references := [numbered "teams" "id"] }),
          ("tasks", { kind := .many, target := 0, fields := [numbered "workers" "id"],
                      references := [numbered "workers" "id"] }),
          ("notes", { kind := .many, target := 1 })] },
      { table := { name := "teams", columns := [("id", numbered "teams" "id")] },
        relations := [
          ("members", { kind := .many, target := 0, fields := [numbered "teams" "id"],
                        references := [numbered "workers" "id"] })] }] }

/-- Members of a team whose teams are unknown there, tasks with something below them, notes that
cannot be joined, and a relation that is not requested. -/
private def teamsAndTasks : List (String × Choice) :=
  [("team", .fields [("with", .tree [("members", .fields [("with", .tree
      [("teams", .plain (.bool true)), ("team", .plain (.bool true))])])])]),
    ("rooms", .plain (.bool false)),
    ("tasks", .fields [("with", .tree [("team", .plain (.bool true))])]),
    ("notes", .plain (.bool true))]

/-- Two of the requests are kept, and three warnings tell of the others. -/
theorem Plan.resolved_of_root_teams : ∃ nodes,
    (root workersAndTeams 0 teamsAndTasks).result = .ok nodes ∧
      Node.AllResolve workersAndTeams 0 [] nodes
        (teamsAndTasks.filter (resolves workersAndTeams 0)) ∧
      Keyed.keys (teamsAndTasks.filter (resolves workersAndTeams 0)) = ["team", "tasks"] ∧
      (root workersAndTeams 0 teamsAndTasks).log = [
        "Table `workers` has no relation `teams`; skipped",
        "Relations nested under aggregated relation `tasks` of `workers` are not supported; "
          ++ "skipped: team",
        "Relation `notes` of `workers` declares no join fields; skipped"].map
          (LogRecord.mk .warning) := by
  refine ⟨_, rfl, (resolved_of_root rfl).1, rfl, (resolved_of_root rfl).2.1.trans rfl⟩

end Columnar
