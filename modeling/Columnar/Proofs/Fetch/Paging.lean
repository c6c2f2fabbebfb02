import Columnar.Proofs.Fetch.Run

/-!
# Pages of a fetch

A limit and an offset change the statement of a fetch in one clause only (`Query.compile_page`), so
a client that cuts its rows as that clause says makes a fetch answer the objects of these rows.
Where fetching does not multiply rows there is one object for each row, and the page of the rows is
the page of the objects.
-/

namespace Columnar

/-! ### One clause of a statement -/

/-- Texts that are not empty, each behind a blank. -/
private def spaced (texts : List String) : String :=
  String.join ((texts.filter (· ≠ "")).map (" " ++ ·))

private theorem spaced_keyword {keyword : String} (text : String) (h : keyword ≠ "") :
    spaced [keyword ++ text] = " " ++ keyword ++ text := by
  rw [spaced, List.filter_cons_of_pos (by simp [h]), List.filter_nil, List.map_singleton,
    String.join_cons, String.join_nil, String.append_empty, String.append_assoc]

namespace Pieces

/-- The text in front of the limit. -/
private def before (c : Clauses) (p : Pieces) : String :=
  " ".intercalate ([p.ctes, "SELECT " ++ (if c.distinct then "DISTINCT " else "") ++ p.selection.1,
    "FROM " ++ p.source, p.prewhere, p.condition, p.groupBy, p.having, p.orderBy].filter (· ≠ ""))

/-- The text behind the offset. -/
private def after (p : Pieces) : String := spaced [p.sample, p.windows, p.settings]

end Pieces

private theorem Clauses.sql_assemble_eq (c : Clauses) (p : Pieces) :
    (c.assemble p).sql = p.before c ++ spaced [c.limitText] ++ p.after := by
  have hselect (text : String) : "FROM " ++ text ≠ "" := by simp
  have hne : [p.ctes, "SELECT " ++ (if c.distinct then "DISTINCT " else "") ++ p.selection.1,
      "FROM " ++ p.source, p.prewhere, p.condition, p.groupBy, p.having,
      p.orderBy].filter (· ≠ "") ≠ [] := by
    intro hnil
    exact absurd (List.filter_eq_nil_iff.mp hnil ("FROM " ++ p.source) (by simp)) (by simp)
  rw [Pieces.before, Pieces.after, spaced, spaced, String.append_assoc, ← String.join_append,
    ← List.map_append, ← List.filter_append, ← intercalate_append hne, ← List.filter_append]
  rfl

/-- The query with another limit and offset. -/
def Query.page (limit offset : Value) (q : Query) : Query :=
  q.modify fun c ↦ { c with limit, offset }

/-- A limit and an offset change one clause of the statement. -/
private theorem Query.compile_page {q : Query} {s : Statement} (h : q.compile.result = .ok s) :
    ∃ t inner p, q.source = some (t, inner) ∧
      q.clauses.HasPieces (q.ctes.map fun e ↦ (e.1, e.2.compile)) t (inner.map compile) {} p ∧
      s = q.clauses.assemble p ∧ ∀ limit offset, (q.page limit offset).compile.result =
        .ok (Clauses.assemble { q.clauses with limit, offset } p) := by
  obtain ⟨t, inner, b, hsource, -, hw⟩ := done_of_compile h
  obtain ⟨c, ctes, source⟩ := q
  obtain rfl := hsource
  obtain ⟨p, hp, hs, -⟩ := Clauses.done_writeWith.mp hw
  refine ⟨t, inner, p, rfl, ?_, hs, fun limit offset ↦ ?_⟩
  · exact ⟨hp.noCtes, hp.ctes, hp.selection, hp.source, hp.prewhere, hp.condition, hp.groupBy,
      hp.having, hp.orderBy, hp.sample, hp.windows, hp.settings, hp.suggestions⟩
  · change (Query.mk { c with limit, offset } ctes (some (t, inner))).compile.result = _
    rw [compile_eq]
    refine Writing.result_run'.mpr ⟨p.afterOrderBy, Clauses.done_writeWith.mpr ⟨p, ?_, rfl, rfl⟩⟩
    exact ⟨hp.hints, hp.noCtes, hp.ctes, hp.selection, hp.source, hp.prewhere, hp.condition,
      hp.groupBy, hp.having, hp.orderBy, hp.sample, hp.windows, hp.settings, hp.suggestions⟩

/-! ### Requests -/

namespace Fetch

/-- The items that a limit and an offset leave: all of them where there is no limit. -/
def cut {α : Type} (limit offset : Option Nat) (xs : List α) : List α :=
  match limit with
  | none => xs
  | some n => (xs.drop (offset.getD 0)).take n

/-- What a statement says of a limit and an offset: nothing of an offset without a limit, or of
zero rows that are skipped. -/
def pageClause (limit offset : Option Nat) : String :=
  match limit, offset.getD 0 with
  | none, _ => ""
  | some n, 0 => " LIMIT " ++ Text.ofNat n
  | some n, k + 1 => " LIMIT " ++ Text.ofNat n ++ " OFFSET " ++ Text.ofNat (k + 1)

/-- A request with a limit and an offset, as far as they are given. -/
def Request.page (limit offset : Option Nat) (r : Request) : Request :=
  { r with limit := limit.elim .null fun n ↦ .int n, offset := offset.elim .null fun n ↦ .int n }

private def setPage (limit offset : Option Nat) (o : FindOptions) : FindOptions :=
  { o with limit := limit.map Int.ofNat, offset := offset.map Int.ofNat }

private theorem options_page (limit offset : Option Nat) (r : Request) :
    (r.page limit offset).options = (r.page none none).options.map (setPage limit offset) := by
  let make (limit offset : Option Int) (related : Option (List (String × Choice)))
      (strategy : JoinStrategy) (_ : Unit) : FindOptions :=
    { filter := r.filter, limit, offset, related, strategy, setsStrategy := true }
  -- The other options are read alike, whether that succeeds or not.
  have hread (limit offset : Option Nat) : (r.page limit offset).options = Checked.toExcept
      (make <$> Checked.good (limit.map Int.ofNat) <*> Checked.good (offset.map Int.ofNat)
        <*> r.related.readTree
        <*> Checked.field "join_strategy" (Field.plain r.strategy).readStrategy
        <*> Checked.good ()) := by
    cases limit <;> cases offset <;> rfl
  rw [hread, hread]
  generalize r.related.readTree = tree
  generalize Checked.field "join_strategy" (Field.plain r.strategy).readStrategy = strategy
  rcases tree with p | tree <;> rcases strategy with p' | strategy <;> rfl

/-- The number that stands in the clauses of a query, which has none for zero. -/
private def pageValue (n : Option Nat) : Value :=
  (FindOptions.counted (n.map Int.ofNat)).elim .null .int

/-- The query of a page is the query without one, with the page in its clauses. -/
private theorem query_page (source : Table × Option Query) (nodes : List Node)
    (options : FindOptions) (limit offset : Option Nat) :
    query source nodes (setPage limit offset options) =
      (query source nodes (setPage none none options)).map
        (Query.page (pageValue limit) (pageValue offset)) := by
  have hsplit : query source nodes (setPage limit offset options) =
      (fun q ↦
        let q := (FindOptions.counted (limit.map Int.ofNat)).elim q fun n ↦ q.limit (.int n)
        (FindOptions.counted (offset.map Int.ofNat)).elim q fun n ↦ q.offset (.int n)) <$>
          query source nodes (setPage none none options) := by
    unfold query setPage
    generalize FindOptions.counted (limit.map Int.ofNat) = l
    generalize FindOptions.counted (offset.map Int.ofNat) = k
    simp only [map_bind]
    refine bind_congr fun d ↦ bind_congr fun q₁ ↦ bind_congr fun q₂ ↦ bind_congr fun filter ↦ ?_
    cases filter with
    | none => cases l <;> cases k <;> rfl
    | some o =>
      rw [map_bind]
      exact bind_congr fun q₃ ↦ by cases l <;> cases k <;> rfl
  rw [hsplit]
  rcases hq : query source nodes (setPage none none options) with e | q
  · rfl
  · obtain ⟨condition, rfl⟩ := query_eq hq
    unfold pageValue
    cases FindOptions.counted (limit.map Int.ofNat) <;>
      cases FindOptions.counted (offset.map Int.ofNat) <;> rfl

/-- What is built for a page is what is built without one, with the page in the query. -/
private theorem build_page (c : Catalog) (id : TableId) (r : Request) (limit offset : Option Nat) :
    (build c id (r.page limit offset)).result = (build c id (r.page none none)).result.map
      fun b ↦ (b.1.page (pageValue limit) (pageValue offset), b.2.1,
        setPage limit offset b.2.2) := by
  have hbuild (limit offset : Option Nat) : (build c id (r.page limit offset)).result = do
      let options ← (r.page none none).options
      let nodes ← (Plan.root c id (options.related.getD [])).result
      let q ← query (c.entry id).source nodes (setPage limit offset options)
      return (q, nodes, setPage limit offset options) := by
    rw [build, Traced.result_bind]
    change (r.page limit offset).options.bind _ = _
    rw [options_page]
    rcases (r.page none none).options with e | options
    · rfl
    · change (_ >>= _ : Traced _).result = _
      simp only [Traced.result_bind]
      rfl
  rw [hbuild, hbuild]
  rcases (r.page none none).options with e | options
  · rfl
  · simp only [bind, Except.bind]
    rcases (Plan.root c id (options.related.getD [])).result with e | nodes
    · rfl
    · simp only [query_page _ _ options limit offset]
      rcases query (c.entry id).source nodes (setPage none none options) with e | q <;> rfl

/-- The page stands in its own clause of the statement. -/
private theorem spaced_limitText (c : Clauses) {limit : Option Nat} (hlimit : limit ≠ some 0)
    (offset : Option Nat) :
    spaced [Clauses.limitText { c with limit := pageValue limit, offset := pageValue offset }] =
      pageClause limit offset := by
  have hkept (text : String) : spaced ["LIMIT " ++ text] = " LIMIT " ++ text :=
    spaced_keyword text (by decide)
  rcases limit with _ | _ | n
  · rfl
  · exact absurd rfl hlimit
  · rcases offset with _ | _ | k
    · exact hkept (Text.ofNat (n + 1))
    · exact hkept (Text.ofNat (n + 1))
    · change spaced ["LIMIT " ++ Text.ofNat (n + 1) ++ " OFFSET " ++ Text.ofNat (k + 1)] = _
      rw [String.append_assoc, String.append_assoc, hkept, ← String.append_assoc,
        ← String.append_assoc]
      rfl

/-- The objects of rows are made one by one where fetching does not multiply rows. -/
private theorem objects_cut {t : Table} {nodes : List Node} (h : Node.anyMultiplies nodes = false)
    {rows : List Row} {os : List Value} (hos : (objects t nodes rows).result = .ok os)
    (limit offset : Option Nat) :
    (objects t nodes (cut limit offset rows)).result = .ok (cut limit offset os) := by
  have hrows (rows : List Row) :
      (objects t nodes rows).result = rows.mapM (Objects.ofRow t nodes) := by
    rw [objects, Traced.result_bind, h]
    change Except.bind (rows.mapM (Objects.ofRow t nodes)) _ = _
    rcases rows.mapM (Objects.ofRow t nodes) with e | os <;> rfl
  rw [hrows] at hos ⊢
  have hall := Succeeding.forall₂_of_mapM hos
  apply Succeeding.mapM_of_forall₂
  unfold cut
  cases limit with
  | none => exact hall
  | some n => exact List.forall₂_take n (List.forall₂_drop (offset.getD 0) hall)

end Fetch

/-! ### What pages answer -/

/-- The client answers a statement with these rows. -/
def Client.Answers {σ : Type} (client : Client σ) (sql : String) (params : Params)
    (rows : List Row) : Prop :=
  ∀ st, (client.query sql params st).1 = .ok rows

/-- Under the key of the query of a fetch the cache holds that query's own template, if any. -/
def TemplateCache.OwnFetch (cache : TemplateCache) (c : Catalog) (id : TableId)
    (r : Fetch.Request) : Prop :=
  ∀ b, (Fetch.build c id r).result = .ok b → cache.Own b.1

namespace Fetch

/-- Behind the page there are only settings. -/
private theorem after_of_pieces {source : Table × Option Query} {nodes : List Node}
    {options : FindOptions} {q : Query} (hq : query source nodes options = .ok q)
    {ctes : List (String × Traced Statement)} {t : Table} {inner : Option (Traced Statement)}
    {b : Bindings} {p : Pieces} (hp : q.clauses.HasPieces ctes t inner b p) :
    p.after = "" ∨ ∃ rest, p.after = " SETTINGS " ++ rest := by
  obtain ⟨condition, rfl⟩ := query_eq hq
  have hsample : p.sample = "" := (Except.ok.inj hp.sample).symm
  have hwindows : p.windows = "" := (Except.ok.inj hp.windows).symm
  have hafter : p.after = spaced [p.settings] := by
    rw [Pieces.after, hsample, hwindows]
    rfl
  rw [hafter, ← Except.ok.inj hp.settings, Clauses.settingsText]
  split
  · exact .inl rfl
  · exact .inr ⟨_, spaced_keyword _ (by decide)⟩

/-- A query without a statement has none with a page either. -/
private theorem compile_page_error {q : Query} (hself : q.page .null .null = q) {e : Failure}
    (h : q.compile.result = .error e) (limit offset : Value) :
    ∃ e', (q.page limit offset).compile.result = .error e' := by
  rcases hs : (q.page limit offset).compile.result with e' | s
  · exact ⟨e', rfl⟩
  · obtain ⟨_, _, p, -, -, -, hpages⟩ := Query.compile_page hs
    have hunpaged : (q.page .null .null).compile.result = _ := hpages .null .null
    rw [hself, h] at hunpaged
    cases hunpaged

/-- Where a fetch without a page has a statement, it has one for each page, and they differ in the
clause of the page only; otherwise no page has one. -/
private theorem statement_page (c : Catalog) (id : TableId) (r : Request) :
    (∀ limit offset b, (build c id (r.page limit offset)).result = .ok b →
      ∃ e, b.1.compile.result = .error e) ∨
    ∃ q nodes options s head tail,
      (build c id (r.page none none)).result = .ok (q, nodes, options) ∧
      q.compile.result = .ok s ∧ s.sql = head ++ tail ∧
      (tail = "" ∨ ∃ rest, tail = " SETTINGS " ++ rest) ∧
      ∀ limit offset, limit ≠ some 0 → ∃ q' options',
        (build c id (r.page limit offset)).result = .ok (q', nodes, options') ∧
        q'.compile.result = .ok { s with sql := head ++ pageClause limit offset ++ tail } := by
  rcases hbuild : (build c id (r.page none none)).result with e | ⟨q, nodes, options⟩
  · left
    intro limit offset b hb
    rw [build_page, hbuild] at hb
    cases hb
  have hpage (limit offset : Option Nat) : (build c id (r.page limit offset)).result =
      .ok (q.page (pageValue limit) (pageValue offset), nodes, setPage limit offset options) := by
    rw [build_page, hbuild]
    rfl
  have hself : q.page .null .null = q :=
    (Prod.mk.inj (Except.ok.inj ((hpage none none).symm.trans hbuild))).1
  rcases hcompile : q.compile.result with e | s
  · left
    intro limit offset b hb
    obtain rfl := Except.ok.inj ((hpage limit offset).symm.trans hb)
    exact compile_page_error hself hcompile _ _
  · right
    obtain ⟨t, inner, p, hsource, hp, rfl, hpages⟩ := Query.compile_page hcompile
    have hsql (limit offset : Option Nat) (hlimit : limit ≠ some 0) : (Clauses.assemble
        { q.clauses with limit := pageValue limit, offset := pageValue offset } p).sql =
          p.before q.clauses ++ pageClause limit offset ++ p.after := by
      rw [Clauses.sql_assemble_eq, spaced_limitText _ hlimit]
      rfl
    have hclauses : { q.clauses with limit := pageValue none, offset := pageValue none } =
        q.clauses := congrArg Query.clauses hself
    refine ⟨q, nodes, options, q.clauses.assemble p, p.before q.clauses, p.after, rfl, hcompile, ?_,
      after_of_pieces (query_of_build hbuild) hp, ?_⟩
    · have hnone := hsql none none nofun
      rw [hclauses] at hnone
      rw [hnone, pageClause, String.append_empty]
    · intro limit offset hlimit
      refine ⟨_, _, hpage limit offset, (hpages _ _).trans ?_⟩
      rw [← hsql limit offset hlimit]
      rfl

/-- Where a fetch has a statement, it has one for each page, with the page in its own clause. A
client that cuts its rows as this clause says makes a fetch answer the objects of the rows that are
left. Where fetching does not multiply rows these are the objects that the page leaves of those
answered without one, and the first object is the one where the page begins. -/
theorem findMany_page (c : Catalog) (id : TableId) (r : Request) :
    (∀ (σ : Type) (client : Client σ) limit offset x, x.1.OwnFetch c id (r.page limit offset) →
      ∃ e, ((findMany client c id (r.page limit offset)).outcome x).1 = .error e) ∨
    ∃ q nodes options s head tail,
      (build c id (r.page none none)).result = .ok (q, nodes, options) ∧
      q.compile.result = .ok s ∧ s.sql = head ++ tail ∧
      (tail = "" ∨ ∃ rest, tail = " SETTINGS " ++ rest) ∧
      ∀ (σ : Type) (client : Client σ) rows limit offset x, limit ≠ some 0 →
        client.Answers (head ++ pageClause limit offset ++ tail) s.params
          (cut limit offset rows) →
        x.1.OwnFetch c id (r.page limit offset) →
        ((findMany client c id (r.page limit offset)).outcome x).1 =
            (objects (c.table id) nodes (cut limit offset rows)).result ∧
          ∀ y os, Node.anyMultiplies nodes = false → client.Answers s.sql s.params rows →
            y.1.OwnFetch c id (r.page none none) →
            ((findMany client c id (r.page none none)).outcome y).1 = .ok os →
            ((findMany client c id (r.page limit offset)).outcome x).1 =
                .ok (cut limit offset os) ∧
              (limit = some 1 → ((findFirst client c id (r.page none offset)).outcome x).1 =
                .ok os[offset.getD 0]?) := by
  rcases statement_page c id r with
    hnone | ⟨q, nodes, options, s, head, tail, hbuild, hs, hsql, htail, hpages⟩
  · left
    intro σ client limit offset x hown
    rcases hb : (build c id (r.page limit offset)).result with e | ⟨q, nodes, options⟩
    · exact ⟨e, outcome_findMany_of_build hb⟩
    · obtain ⟨e, he⟩ := hnone limit offset _ hb
      exact outcome_findMany_error hb he (hown _ hb)
  · right
    refine ⟨q, nodes, options, s, head, tail, hbuild, hs, hsql, htail, ?_⟩
    have hrun {σ : Type} {client : Client σ} {rows : List Row} {limit offset : Option Nat}
        {x : TemplateCache × σ} (hlimit : limit ≠ some 0)
        (hclient : client.Answers (head ++ pageClause limit offset ++ tail) s.params rows)
        (hown : x.1.OwnFetch c id (r.page limit offset)) :
        ((findMany client c id (r.page limit offset)).outcome x).1 =
          (objects (c.table id) nodes rows).result := by
      obtain ⟨q', options', hb, hs'⟩ := hpages limit offset hlimit
      exact outcome_findMany hb hs' (hown _ hb) (hclient x.2)
    intro σ client rows limit offset x hlimit hclient hown
    refine ⟨hrun hlimit hclient hown, ?_⟩
    intro y os hsingle hall hownAll hos
    have hwhole : client.Answers (head ++ pageClause none none ++ tail) s.params rows := by
      rwa [pageClause, String.append_empty, ← hsql]
    have hunpaged : (none : Option Nat) ≠ some 0 := nofun
    have hobjects : (objects (c.table id) nodes rows).result = .ok os :=
      (hrun hunpaged hwhole hownAll).symm.trans hos
    have hpage := objects_cut hsingle hobjects limit offset
    rw [← hrun hlimit hclient hown] at hpage
    refine ⟨hpage, ?_⟩
    rintro rfl
    rw [outcome_findFirst]
    change Except.map List.head? ((findMany client c id (r.page (some 1) offset)).outcome x).1 = _
    rw [hpage]
    simp [cut, Except.map, List.head?_take, List.head?_drop]

/-! ### Members with their fees, cards and loans -/

private def recorded (table name : String) : Column :=
  { name, type := "UInt64", table := some table }

private def recordsOf (name : String) (columns : List String) : Table :=
  { name, columns := columns.map fun key ↦ (key, recorded name key) }

private def club : Catalog :=
  { entries := #[
      { table := recordsOf "members" ["id"]
        relations := [("card", { kind := .one, target := 1, fields := [recorded "members" "id"],
                                 references := [recorded "cards" "member"] }),
                      ("fees", { kind := .many, target := 3, fields := [recorded "members" "id"],
                                 references := [recorded "fees" "member"] })] },
      { table := recordsOf "cards" ["member"]
        relations := [("loans", { kind := .many, target := 2,
                                  fields := [recorded "cards" "member"],
                                  references := [recorded "loans" "member"] })] },
      { table := recordsOf "loans" ["member", "book"] },
      { table := recordsOf "fees" ["member", "due"] }] }

private def unusedCache : TemplateCache × Unit := ({ capacity := 1, positive := by decide }, ())

private theorem ownFetch_unusedCache (c : Catalog) (id : TableId) (r : Request) :
    unusedCache.1.OwnFetch c id r := by
  intro b _ f t _ hfound
  cases hfound

/-- A client that answers one statement with all rows, any other one with a page of them. -/
private def pagingClient (sql : String) (limit offset : Option Nat) (rows : List Row) :
    Client Unit where
  query sql' _ st := (.ok (if sql' = sql then rows else cut limit offset rows), st)
  command _ _ st := (.ok (), st)
  now _ := 0
  sleep _ st := st

private def withFees : Request := { related := .tree [("fees", .plain (.bool true))] }

private def feesText : String :=
  "SELECT `members`.`id` AS `id`, " ++
  "groupUniqArray(tuple(`fees`.`member`, `fees`.`due`)) AS `fees` FROM `members` " ++
  "LEFT JOIN `fees` ON `members`.`id` = `fees`.`member` " ++
  "GROUP BY `members`.`id` SETTINGS join_use_nulls = 1"

/-- The row of a member with fees. -/
private def owing (id : Int) (dues : List Int) : Row :=
  [(.text "id", .int id), (.text "fees", .list (dues.map fun due ↦ .tuple [.int id, .int due]))]

private def memberOwing (id : Int) (dues : List Int) : Value :=
  .map [(.text "id", .int id), (.text "fees", .list (dues.map fun due ↦
    .map [(.text "member", .int id), (.text "due", .int due)]))]

private def debtors : List Row := [owing 1 [30], owing 2 [10, 25, 40], owing 3 []]

private def allFees : Client Unit := pagingClient feesText (some 1) (some 1) debtors

private theorem built_withFees : ∃ q nodes options s,
    (build club 0 (withFees.page none none)).result = .ok (q, nodes, options) ∧
    Node.anyMultiplies nodes = false ∧ q.compile.result = .ok s ∧ s.sql = feesText ∧
    (objects (club.table 0) nodes debtors).result =
      .ok [memberOwing 1 [30], memberOwing 2 [10, 25, 40], memberOwing 3 []] :=
  ⟨_, _, _, _, rfl, rfl, rfl, by decide +kernel, rfl⟩

/-- The second one of three members, and the first one behind the first, with all their fees. -/
theorem findMany_page_second : (some 1 : Option Nat) ≠ some 0 ∧
    ((findMany allFees club 0 (withFees.page none none)).outcome unusedCache).1 =
      .ok [memberOwing 1 [30], memberOwing 2 [10, 25, 40], memberOwing 3 []] ∧
    ((findMany allFees club 0 (withFees.page (some 1) (some 1))).outcome unusedCache).1 =
      .ok [memberOwing 2 [10, 25, 40]] ∧
    ((findFirst allFees club 0 (withFees.page none (some 1))).outcome unusedCache).1 =
      .ok (some (memberOwing 2 [10, 25, 40])) := by
  refine ⟨by decide, ?_⟩
  obtain ⟨q, nodes, options, s, hbuild, hsingle, hs, hsql, hobjects⟩ := built_withFees
  have hwhole : allFees.Answers s.sql s.params debtors := fun _ ↦ congrArg Except.ok (if_pos hsql)
  have hall := (outcome_findMany hbuild hs (ownFetch_unusedCache _ _ _ _ hbuild)
    (hwhole ())).trans hobjects
  refine ⟨hall, ?_⟩
  rcases findMany_page club 0 withFees with
    hnone | ⟨q', nodes', options', s', head, tail, hbuild', hs', hparts, -, hpages⟩
  · obtain ⟨e, he⟩ := hnone Unit allFees none none unusedCache (ownFetch_unusedCache _ _ _)
    cases hall.symm.trans he
  · obtain ⟨rfl, hplan⟩ := Prod.mk.inj (Except.ok.inj (hbuild.symm.trans hbuild'))
    obtain ⟨rfl, -⟩ := Prod.mk.inj hplan
    obtain rfl := Except.ok.inj (hs.symm.trans hs')
    have hpage : allFees.Answers (head ++ pageClause (some 1) (some 1) ++ tail) s.params
        (cut (some 1) (some 1) debtors) := by
      have hlonger : head ++ pageClause (some 1) (some 1) ++ tail ≠ feesText := by
        intro h
        have hlength := congrArg String.length (h.trans (hsql.symm.trans hparts))
        rw [String.length_append, String.length_append, String.length_append] at hlength
        have hclause : (pageClause (some 1) (some 1)).length = 17 := rfl
        omega
      exact fun _ ↦ congrArg Except.ok (if_neg hlonger)
    obtain ⟨-, hmembers⟩ := hpages Unit allFees debtors (some 1) (some 1) unusedCache
      (by decide) hpage (ownFetch_unusedCache _ _ _)
    obtain ⟨hsecond, hfirst⟩ := hmembers unusedCache _ hsingle hwhole
      (ownFetch_unusedCache _ _ _) hall
    exact ⟨hsecond, hfirst rfl⟩

/-- The text of the statement that a fetch runs. -/
private def statementText (c : Catalog) (id : TableId) (r : Request) : Except Failure String :=
  (do
    let (q, _, _) ← build c id r
    return (← q.compile).sql : Traced String).result

private def twoMembers : List Row := [[(.text "id", .int 1)], [(.text "id", .int 2)]]

private def allMembers : Client Unit :=
  pagingClient "SELECT `members`.`id` AS `id` FROM `members`" (some 1) (some 1) twoMembers

private def withLoans : Request :=
  { related := .tree [("card", .fields [("with", .tree [("loans", .plain (.bool true))])])] }

private def lent (book : Int) : Row :=
  [(.text "id", .int 1), (.text "card_member", .int 1), (.text "card__loans_member", .int 1),
    (.text "card__loans_book", .int book)]

private def memberWith (loans : List Value) : Value :=
  .map [(.text "id", .int 1),
    (.text "card", .map [(.text "member", .int 1), (.text "loans", .list loans)])]

private def loanOf (book : Int) : Value :=
  .map [(.text "member", .int 1), (.text "book", .int book)]

/-- An offset without a limit leaves all objects, since the statement says nothing of it; and where
fetching multiplies rows, a limit of one leaves the first member with one loan only. -/
theorem not_findMany_page :
    (statementText club 0 (({} : Request).page none (some 1)) =
        .ok "SELECT `members`.`id` AS `id` FROM `members`" ∧
      ((findMany allMembers club 0 (({} : Request).page none none)).outcome unusedCache).1 =
        .ok [.map [(.text "id", .int 1)], .map [(.text "id", .int 2)]] ∧
      ((findMany allMembers club 0 (({} : Request).page none (some 1))).outcome unusedCache).1 =
        .ok [.map [(.text "id", .int 1)], .map [(.text "id", .int 2)]]) ∧
    ∃ head tail, statementText club 0 (withLoans.page none none) = .ok (head ++ tail) ∧
      statementText club 0 (withLoans.page (some 1) none) = .ok (head ++ " LIMIT 1" ++ tail) ∧
      ((findMany (pagingClient (head ++ tail) (some 1) none [lent 7, lent 8]) club 0
        (withLoans.page none none)).outcome unusedCache).1 =
          .ok [memberWith [loanOf 7, loanOf 8]] ∧
      ((findMany (pagingClient (head ++ tail) (some 1) none [lent 7, lent 8]) club 0
        (withLoans.page (some 1) none)).outcome unusedCache).1 = .ok [memberWith [loanOf 7]] := by
  refine ⟨⟨rfl, rfl, rfl⟩, ?_⟩
  have htext {r : Request} {b : Query × List Node × FindOptions} {s : Statement}
      (hb : (build club 0 r).result = .ok b) (hs : b.1.compile.result = .ok s) :
      statementText club 0 r = .ok s.sql := by
    rw [statementText, Traced.result_bind, hb]
    change ((b.1.compile >>= fun s ↦ pure s.sql : Traced String)).result = _
    rw [Traced.result_bind, hs]
    rfl
  rcases statement_page club 0 withLoans with
    hnone | ⟨q, nodes, options, s, head, tail, hbuild, hs, hsql, -, hpages⟩
  · obtain ⟨e, he⟩ := hnone none none _ rfl
    cases he
  · obtain ⟨q', options', hbuild', hs'⟩ := hpages (some 1) none (by decide)
    have hnodes := (Prod.mk.inj (Prod.mk.inj (Except.ok.inj hbuild)).2).1
    refine ⟨head, tail, hsql ▸ htext hbuild hs, htext hbuild' hs', ?_, ?_⟩
    · rw [outcome_findMany hbuild hs (ownFetch_unusedCache _ _ _ _ hbuild)
        (congrArg Except.ok (if_pos hsql)), ← hnodes]
      rfl
    · have hlonger : head ++ pageClause (some 1) none ++ tail ≠ head ++ tail := by
        intro h
        have hlength := congrArg String.length h
        rw [String.length_append, String.length_append, String.length_append] at hlength
        have hclause : (pageClause (some 1) none).length = 8 := rfl
        omega
      rw [outcome_findMany hbuild' hs' (ownFetch_unusedCache _ _ _ _ hbuild')
        (congrArg Except.ok (if_neg hlonger)), ← hnodes]
      rfl

end Fetch

end Columnar
