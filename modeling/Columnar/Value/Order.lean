import Columnar.Value.Equality

/-!
# Order of values

Numbers of every kind are ordered by the number they stand for, text by code points, sequences by
their first unequal items, dates and date-times in time. Other values have no order, and to compare
them fails. `Order.sort` sorts by a comparison that may fail; `sort_singleton` says that one item
is never compared, `perm_of_sort` that a sort which succeeds loses and adds no item.
-/

namespace Columnar

namespace Numeral

/-- The exponent of the power of ten that is just above a number other than zero. -/
def scale (n : Numeral) : Int := (Nat.toDigits 10 n.coefficient).length + n.exponent

/-- Whether a number is below another by size, signs left out, neither being zero. -/
def smaller (a b : Numeral) : Bool :=
  if a.scale ≠ b.scale then a.scale < b.scale
  else
    let unit := min a.exponent b.exponent
    a.coefficient * Nat.pow 10 (a.exponent - unit).toNat
      < b.coefficient * Nat.pow 10 (b.exponent - unit).toNat

/-- Whether a number is below another. -/
def less (a b : Numeral) : Bool :=
  if a.coefficient = 0 then b.coefficient ≠ 0 && !b.negative
  else if b.coefficient = 0 then a.negative
  else
    match a.negative, b.negative with
    | true, false => true
    | false, true => false
    | false, false => a.smaller b
    | true, true => b.smaller a

end Numeral

/-- Whether a number or infinity is below another. -/
def Extended.less : Extended → Extended → Bool
  | .finite a, .finite b => a.less b
  | .finite _, .infinite negative => !negative
  | .infinite negative, .finite _ => negative
  | .infinite a, .infinite b => a && !b

namespace Value

/-- Whether a value is a decimal. -/
def isDecimal : Value → Bool
  | decimal _ => true
  | _ => false

/-- Whether a number comes before another: a float that is not a number comes before none, and no
decimal is compared with what is not a number. -/
def numberLess (a b : Value) : Except Failure Bool :=
  match a.number?, b.number? with
  | some m, some n => .ok (m.less n)
  | _, _ => if a.isDecimal || b.isDecimal then .error .nanComparison else .ok false

/-- Whether a value comes before another one, neither being a sequence. -/
def scalarLess (a b : Value) : Except Failure Bool :=
  match a, b with
  | text s, text t => .ok (s < t)
  | uuid u, uuid v => .ok (u.bits < v.bits)
  | date d, date e => .ok (d.day < e.day)
  | dateTime s, dateTime t =>
    if s.offset.isSome == t.offset.isSome then .ok (s.instant < t.instant)
    else .error .mixedOffsets
  | date _, dateTime _ | dateTime _, date _ => .error .mixedDates
  | a, b =>
    if a.isNumeric && b.isNumeric then numberLess a b
    else .error (.notOrdered a.kind b.kind)

mutual

/-- Whether a value comes before another. -/
def less : Value → Value → Except Failure Bool
  | list xs, list ys => lessAll xs ys
  | tuple xs, tuple ys => lessAll xs ys
  | a, b => scalarLess a b

/-- Whether a sequence comes before another: by the first items that are not equal, and the shorter
one first when there are none. -/
def lessAll : List Value → List Value → Except Failure Bool
  | [], ys => .ok (!ys.isEmpty)
  | _ :: _, [] => .ok false
  | x :: xs, y :: ys =>
    match same x y with
    | .ok true => lessAll xs ys
    | .ok false => less x y
    | .error failure => .error failure

end

end Value

namespace Order

variable {α ε : Type}

/-- The items that go on as a run has begun, and the rest: a run that descends goes on while each
item is below the one before, any other run until one is. -/
def run (less : α → α → Except ε Bool) (descends : Bool) (last : α) :
    List α → Except ε (List α × List α)
  | [] => .ok ([], [])
  | x :: rest => do
    if (← less x last) == descends then
      let (more, others) ← run less descends x rest
      return (x :: more, others)
    else return ([], x :: rest)

/-- How many items of a sorted list stay in front of a new one, found by bisection from `low` to
`high` of them. -/
def place (less : α → α → Except ε Bool) (new : α) (sorted : List α) (low high : Nat) :
    Except ε Nat :=
  if _h : low < high then
    let middle := (low + high) / 2
    match sorted[middle]? with
    | none => .ok low
    | some x =>
      match less new x with
      | .error e => .error e
      | .ok true => place less new sorted low middle
      | .ok false => place less new sorted (middle + 1) high
  else .ok low
termination_by high - low
decreasing_by all_goals omega

/-- Puts items one by one into a sorted list. -/
def insertAll (less : α → α → Except ε Bool) (sorted : List α) : List α → Except ε (List α)
  | [] => .ok sorted
  | x :: rest => do
    let n ← place less x sorted 0 sorted.length
    insertAll less (sorted.take n ++ x :: sorted.drop n) rest

/-- The items in order, or the failure of the first comparison that fails: the run in front,
reversed when it descends, takes up all other items one by one. -/
def sort (less : α → α → Except ε Bool) : List α → Except ε (List α)
  | x :: y :: rest => do
    let descends ← less y x
    let (more, others) ← run less descends y rest
    let front := x :: y :: more
    insertAll less (if descends then front.reverse else front) others
  | few => .ok few

/-- A single item is in order, whatever it is. -/
theorem sort_singleton (less : α → α → Except ε Bool) (x : α) : sort less [x] = .ok [x] := rfl

/-- Putting items into a sorted list loses and adds none. -/
theorem perm_of_insertAll {less : α → α → Except ε Bool} {sorted items all : List α}
    (h : insertAll less sorted items = .ok all) : all.Perm (sorted ++ items) := by
  induction items generalizing sorted with
  | nil =>
    simp only [insertAll, Except.ok.injEq] at h
    simp [← h]
  | cons x rest ih =>
    simp only [insertAll, bind, Except.bind] at h
    split at h
    · cases h
    · rename_i n _
      refine (ih h).trans ?_
      have hs : (sorted.take n ++ x :: sorted.drop n).Perm (sorted ++ [x]) := by
        refine (List.perm_middle).trans ?_
        rw [List.take_append_drop]
        exact (List.perm_append_singleton x sorted).symm
      simpa using hs.append_right rest

/-- A run and the rest are all items, in order. -/
theorem append_of_run {less : α → α → Except ε Bool} {descends : Bool} {last : α}
    {items more others : List α} (h : run less descends last items = .ok (more, others)) :
    more ++ others = items := by
  induction items generalizing last more with
  | nil =>
    simp only [run, Except.ok.injEq, Prod.mk.injEq] at h
    simp [← h.1, ← h.2]
  | cons x rest ih =>
    simp only [run, bind, Except.bind, pure, Except.pure] at h
    split at h
    · cases h
    · split at h
      · split at h
        · cases h
        · rename_i hr
          cases h
          simp [ih hr]
      · cases h
        simp

/-- A sort that succeeds loses and adds no item. -/
theorem perm_of_sort {less : α → α → Except ε Bool} {items sorted : List α}
    (h : sort less items = .ok sorted) : sorted.Perm items := by
  match items with
  | [] => cases h; exact .refl _
  | [_] => cases h; exact .refl _
  | x :: y :: rest =>
    simp only [sort, bind, Except.bind] at h
    split at h
    · cases h
    · split at h
      · cases h
      · rename_i hr
        refine (perm_of_insertAll h).trans ?_
        rw [← append_of_run hr]
        have hf (b : Bool) (front : List α) :
            (if b = true then front.reverse else front).Perm front := by
          cases b
          · exact .refl _
          · exact List.reverse_perm front
        exact (hf _ _).append_right _

private theorem insertAll_of_append {less : α → α → Except ε Bool} {sorted items all : List α}
    {x : α} (h : insertAll less sorted (items ++ [x]) = .ok all) :
    ∃ front, insertAll less sorted items = .ok front := by
  induction items generalizing sorted with
  | nil => exact ⟨sorted, rfl⟩
  | cons y rest ih =>
    simp only [List.cons_append, insertAll, bind, Except.bind] at h ⊢
    split at h
    · cases h
    · exact ih h

/-- One item more ends up in the run, when no other item is left, or else at the end. -/
private theorem run_of_append {less : α → α → Except ε Bool} {descends : Bool} {last x : α}
    {items more others : List α}
    (h : run less descends last (items ++ [x]) = .ok (more, others)) :
    ∃ more' others', run less descends last items = .ok (more', others') ∧
      (others' = [] ∨ more = more' ∧ others = others' ++ [x]) := by
  induction items generalizing last more others with
  | nil => exact ⟨[], [], rfl, .inl rfl⟩
  | cons y rest ih =>
    simp only [List.cons_append, run, bind, Except.bind, pure, Except.pure] at h ⊢
    split at h
    · cases h
    · split at h
      · next hd =>
        rw [if_pos hd]
        split at h
        · cases h
        · next p hr =>
          obtain ⟨more₁, others₁⟩ := p
          obtain ⟨more', others', hr', hcases⟩ := ih hr
          rw [hr']
          cases h
          refine ⟨y :: more', others', rfl, ?_⟩
          rcases hcases with hnil | ⟨rfl, rfl⟩
          · exact .inl hnil
          · exact .inr ⟨rfl, rfl⟩
      · next hd =>
        rw [if_neg hd]
        cases h
        exact ⟨[], y :: rest, rfl, .inr ⟨rfl, rfl⟩⟩

/-- Items can be sorted when they can be with one more behind them. -/
theorem sort_of_append {less : α → α → Except ε Bool} {items all : List α} {x : α}
    (h : sort less (items ++ [x]) = .ok all) : ∃ front, sort less items = .ok front := by
  match items with
  | [] => exact ⟨[], rfl⟩
  | [y] => exact ⟨[y], rfl⟩
  | y :: z :: rest =>
    simp only [List.cons_append, sort, bind, Except.bind] at h ⊢
    split at h
    · cases h
    · split at h
      · cases h
      · next p hr =>
        obtain ⟨more, others⟩ := p
        obtain ⟨more', others', hr', hcases⟩ := run_of_append hr
        rw [hr']
        rcases hcases with rfl | ⟨rfl, rfl⟩
        · exact ⟨_, rfl⟩
        · exact insertAll_of_append h

end Order

end Columnar
