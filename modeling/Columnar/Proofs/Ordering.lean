import Columnar.Proofs.Pieces
import Columnar.Proofs.Succeeding
import Columnar.Proofs.Text.Words

/-!
# The direction of an ordering

An item of an ordering is emitted as it is rendered when its text ends in a direction that stands
behind a space, and otherwise with its own direction behind it (`Clauses.hasDirection_iff`). Either
way it ends in a direction then, so an item that is made of what was emitted is emitted as it is
(`Clauses.directed_directed`). `Query.orderBy_emitted` says so of the items of every query that
compiles. A direction behind any other blank is not noticed: the item gets a second one
(`Query.not_oneDirection_tabbed`).
-/

namespace Columnar

/-- The text has several words, and the last one is a direction in any letter case. -/
def EndsInDirection (sql : String) : Prop :=
  ∃ front word, Text.words sql = front ++ [word] ∧ front ≠ [] ∧
    (Text.capitals word = "ASC" ∨ Text.capitals word = "DESC")

namespace Clauses

/-- Writes one item of an ordering. -/
def writeOrderItem (scope : Scope) (o : OrderItem) : Writing String := do
  return directed (← Writing.rendering (o.item.render scope)) o.direction

/-- A direction is one word. -/
private theorem not_isBlank_keyword (direction : Direction) :
    ∀ c ∈ direction.keyword.toList, Text.isBlank c = false := by
  cases direction <;> simp [Direction.keyword, Text.isBlank, Text.blankCodes]

theorem hasDirection_iff {sql : String} :
    hasDirection sql = true ↔ EndsInDirection sql ∧ Text.gapBeforeLast sql = some ' ' := by
  have hasc := Text.endsInKeyword_iff "ASC" (not_isBlank_keyword .asc) sql
  have hdesc := Text.endsInKeyword_iff "DESC" (not_isBlank_keyword .desc) sql
  rw [hasDirection, Bool.or_eq_true]
  change Text.endsInKeyword (" " ++ "ASC") sql = true ∨
    Text.endsInKeyword (" " ++ "DESC") sql = true ↔ _
  rw [hasc, hdesc]
  constructor
  · rintro (⟨front, word, hwords, hfront, hword, hgap⟩ | ⟨front, word, hwords, hfront, hword, hgap⟩)
    · exact ⟨⟨front, word, hwords, hfront, .inl hword⟩, hgap⟩
    · exact ⟨⟨front, word, hwords, hfront, .inr hword⟩, hgap⟩
  · rintro ⟨⟨front, word, hwords, hfront, hword | hword⟩, hgap⟩
    · exact .inl ⟨front, word, hwords, hfront, hword, hgap⟩
    · exact .inr ⟨front, word, hwords, hfront, hword, hgap⟩

/-- Behind a text that is not blank, a direction is one. -/
theorem hasDirection_append {sql : String} (h : Text.words sql ≠ []) (direction : Direction) :
    hasDirection (sql ++ " " ++ direction.keyword) = true := by
  obtain ⟨hne, hkeyword⟩ : direction.keyword ≠ "" ∧
      (Text.capitals direction.keyword = "ASC" ∨ Text.capitals direction.keyword = "DESC") := by
    cases direction <;> decide +kernel
  obtain ⟨hwords, hgap⟩ := Text.words_append_word sql hne (not_isBlank_keyword direction)
  exact hasDirection_iff.mpr ⟨⟨_, _, hwords, h, hkeyword⟩, hgap⟩

theorem hasDirection_directed {sql : String} (h : Text.words sql ≠ []) (direction : Direction) :
    hasDirection (directed sql direction) = true := by
  unfold directed
  split
  · next hd => exact hd
  · exact hasDirection_append h direction

/-- A second direction changes nothing. -/
theorem directed_directed {sql : String} (h : Text.words sql ≠ []) (direction other : Direction) :
    directed (directed sql direction) other = directed sql direction :=
  if_pos (hasDirection_directed h direction)

/-- The text `e` is what is emitted for an item that is rendered as `sql`. -/
structure Emits (sql : String) (direction : Direction) (e : String) : Prop where
  kept : EndsInDirection sql → Text.gapBeforeLast sql = some ' ' → e = sql
  given : ¬ (EndsInDirection sql ∧ Text.gapBeforeLast sql = some ' ') →
    e = sql ++ " " ++ direction.keyword
  ends : EndsInDirection e
  again : ∀ scope other b, (writeOrderItem scope ⟨.expression (.raw e), other⟩).Done b e b

/-- Raw text is rendered as it is. -/
theorem done_render_raw (scope : Scope) (text : String) (b : Bindings) :
    ((Operand.expression (.raw text)).render scope).Done b text b := by
  refine Render.done_pure.mpr ⟨?_, rfl⟩
  simp

theorem emits_directed {sql : String} (h : Text.words sql ≠ []) (direction : Direction) :
    Emits sql direction (directed sql direction) where
  kept hends hgap := if_pos (hasDirection_iff.mpr ⟨hends, hgap⟩)
  given hnot := if_neg fun hd ↦ hnot (hasDirection_iff.mp hd)
  ends := (hasDirection_iff.mp (hasDirection_directed h direction)).1
  again scope other b := by
    refine Writing.done_bind.mpr ⟨_, _, Writing.done_rendering.mpr (done_render_raw scope _ b), ?_⟩
    exact Writing.done_pure.mpr ⟨(directed_directed h direction other).symm, rfl⟩

/-- What the law of one direction asks of the text `e` that is emitted for an item. -/
structure OneDirection (sql : String) (direction : Direction) (e : String) : Prop where
  kept : EndsInDirection sql → e = sql
  given : ¬ EndsInDirection sql → e = sql ++ " " ++ direction.keyword
  again : ∀ scope other b, (writeOrderItem scope ⟨.expression (.raw e), other⟩).Done b e b

/-- The law holds of an item unless its own direction stands behind another blank than a space. -/
theorem Emits.oneDirection {sql e : String} {direction : Direction} (h : Emits sql direction e)
    (hgap : EndsInDirection sql → Text.gapBeforeLast sql = some ' ') :
    OneDirection sql direction e where
  kept hends := h.kept hends (hgap hends)
  given hnot := h.given fun hd ↦ hnot hd.1
  again := h.again

end Clauses

/-! ### Items in a row -/

/-- Where each answer is made into another one, so are the answers of a row. -/
theorem Writing.done_mapM_map {α β ι : Type} {f : ι → Writing α} {g : ι → α → β} {items : List ι}
    {b b' : Bindings} {rs : List β}
    (h : (items.mapM fun i ↦ do return g i (← f i)).Done b rs b') :
    ∃ as, (items.mapM f).Done b as b' ∧ rs = List.zipWith g items as := by
  induction items generalizing b rs with
  | nil =>
    obtain ⟨rfl, rfl⟩ := done_pure.mp h
    exact ⟨[], done_pure.mpr ⟨rfl, rfl⟩, rfl⟩
  | cons i items ih =>
    rw [List.mapM_cons] at h
    obtain ⟨r, b₁, hr, h⟩ := done_bind.mp h
    obtain ⟨rs, b₂, hrs, h⟩ := done_bind.mp h
    obtain ⟨rfl, rfl⟩ := done_pure.mp h
    obtain ⟨a, b₃, ha, hr⟩ := done_bind.mp hr
    obtain ⟨rfl, rfl⟩ := done_pure.mp hr
    obtain ⟨as, has, rfl⟩ := ih hrs
    refine ⟨a :: as, ?_, rfl⟩
    rw [List.mapM_cons]
    exact done_bind.mpr ⟨a, _, ha, done_bind.mpr ⟨as, _, has, done_pure.mpr ⟨rfl, rfl⟩⟩⟩

private theorem forall₂_zipWith {α β γ : Type} {f : α → β → γ} {R : α × β → γ → Prop}
    (h : ∀ x y, R (x, y) (f x y)) (xs : List α) (ys : List β) :
    List.Forall₂ R (xs.zip ys) (List.zipWith f xs ys) := by
  induction xs generalizing ys with
  | nil => exact .nil
  | cons x xs ih =>
    cases ys with
    | nil => exact .nil
    | cons y ys => exact .cons (h x y) (ih ys)

namespace Clauses

/-- The text of an ordering from what is emitted for its items: none without items. -/
def orderByText (c : Clauses) (emitted : List String) : String :=
  if c.orderBy.isEmpty then "" else "ORDER BY " ++ ", ".intercalate emitted

/-- An ordering is rendered item by item, and each item is emitted with a direction. -/
theorem orderBy_of_done {c : Clauses} {scope : Scope} {b b' : Bindings} {sql : String}
    (h : (c.writeOrderBy scope).Done b sql b') :
    ∃ sqls, (c.orderBy.mapM fun o ↦ Writing.rendering (o.item.render scope)).Done b sqls b' ∧
      sql = c.orderByText
        (List.zipWith (fun o sql ↦ directed sql o.direction) c.orderBy sqls) := by
  have heq : c.writeOrderBy scope = do
      liftM (Misfits.visitIfAny "expression" c.misfits.orderBy)
      return c.orderByText (← c.orderBy.mapM (writeOrderItem scope)) := by
    unfold writeOrderBy orderByText
    cases c.orderBy <;> rfl
  rw [heq] at h
  obtain ⟨⟨⟩, -, h⟩ := Writing.done_check_bind.mp h
  obtain ⟨emitted, b₁, hitems, h⟩ := Writing.done_bind.mp h
  obtain ⟨rfl, rfl⟩ := Writing.done_pure.mp h
  obtain ⟨sqls, hsqls, rfl⟩ := Writing.done_mapM_map hitems
  exact ⟨sqls, hsqls, rfl⟩

end Clauses

namespace Query

/-- The statement holds the items of the ordering one by one, each as `R` relates its text, its
direction and what is emitted; blank texts aside. -/
def EmitsItems (R : String → Direction → String → Prop) (q : Query) (s : Statement) : Prop :=
  ∃ t inner p sqls emitted, q.source = some (t, inner) ∧
    q.clauses.HasPieces (q.ctes.map fun e ↦ (e.1, e.2.compile)) t (inner.map compile) {} p ∧
    s = q.clauses.assemble p ∧
    (q.clauses.orderBy.mapM fun o ↦ Writing.rendering (o.item.render { columns := t.keys })).Done
      p.afterHaving sqls p.afterOrderBy ∧
    p.orderBy = q.clauses.orderByText emitted ∧
    List.Forall₂ (fun o e ↦ Text.words o.2 ≠ [] → R o.2 o.1.direction e)
      (q.clauses.orderBy.zip sqls) emitted

/-- Every item of an ordering is emitted with one direction, which is its own or the text's. -/
theorem orderBy_emitted {q : Query} {s : Statement} (h : q.compile.result = .ok s) :
    q.EmitsItems Clauses.Emits s := by
  obtain ⟨t, inner, p, hsource, hp, hs⟩ := pieces_of_compile h
  obtain ⟨sqls, hsqls, hsql⟩ := Clauses.orderBy_of_done hp.orderBy
  refine ⟨t, inner, p, sqls, _, hsource, hp, hs, hsqls, hsql, ?_⟩
  exact forall₂_zipWith (fun o _ hwords ↦ Clauses.emits_directed hwords o.direction) _ _

private def readers : Table :=
  { name := "readers", columns := [("email", { name := "email", type := "String" })] }

/-- The readers by these texts, in ascending order. -/
private def readersBy (texts : List String) : Query :=
  .mk { orderBy := texts.map fun text ↦ ⟨.expression (.raw text), .asc⟩ } [] (some (readers, none))

/-- A direction in small letters with white space behind it, one word that is a direction, and a
word that ends in one. -/
theorem orderBy_emitted_readers :
    ∃ s, (readersBy ["email  desc\n", "desc", "email.desc"]).compile.result = .ok s ∧
      s.sql = "SELECT * FROM `readers` ORDER BY email  desc\n, desc ASC, email.desc ASC" ∧
      (readersBy ["email  desc\n", "desc", "email.desc"]).EmitsItems Clauses.Emits s :=
  ⟨_, rfl, rfl, orderBy_emitted rfl⟩

/-- A direction behind a tab is the last of two words, and yet another one is written. -/
theorem not_oneDirection_tabbed : ¬ ∀ (q : Query) (s : Statement), q.compile.result = .ok s →
    q.EmitsItems Clauses.OneDirection s := by
  intro h
  obtain ⟨t, inner, p, sqls, emitted, -, hp, -, hsqls, horder, hitems⟩ :=
    h (readersBy ["email\tdesc"]) _ rfl
  obtain rfl : ["email\tdesc"] = sqls := congrArg Prod.fst (Except.ok.inj hsqls)
  have hwritten : "ORDER BY email\tdesc ASC" = p.orderBy :=
    congrArg Prod.fst (Except.ok.inj hp.orderBy)
  obtain _ | ⟨hitem, hrest⟩ := hitems
  have hends : EndsInDirection "email\tdesc" := ⟨["email"], "desc", by decide, by decide, by decide⟩
  cases hrest
  rw [(hitem (by decide)).kept hends, ← hwritten] at horder
  revert horder
  decide

end Query

end Columnar
