import Columnar.Proofs.Placeholders.Expressions
import Columnar.Proofs.Undefined.Supplied

/-!
# Rendering and walking together

An expression is rendered and walked by two recursions over its body. Both stop at the first fault
of the body, a literal without serial form or an end without text (`Body.fault?`); rendering stops
at an undefined literal as well. `Expr.FailsAt` says at which place a traversal fails, by cutting
the body in front of the place and behind it, and `Expr.render_walk` is the agreement of the two.
-/

namespace Columnar

/-! ### Places -/

namespace Body

/-- What holds of a body where it holds of the expression in the first slot and of what is behind it
holds of all bodies. -/
theorem cons_induction {P : Body → Prop} (missing : P missing) (done : ∀ text, P (done text))
    (cons : ∀ text slot rest, (∀ e, slot = .expression e → P e.body) → P rest →
      P (cons text slot rest)) (body : Body) : P body := by
  induction body with
  | missing => exact missing
  | done text => exact done text
  | column text c rest ih => exact cons text (.column c) rest (by rintro e ⟨⟩) ih
  | raw text insert rest ih => exact cons text (.raw insert) rest (by rintro e ⟨⟩) ih
  | literal text v rest ih => exact cons text (.literal v) rest (by rintro e ⟨⟩) ih
  | nested text label inner rest ihInner ih =>
    refine cons text (.expression ⟨label, inner⟩) rest ?_ ih
    rintro e ⟨⟩
    exact ihInner

/-- The body up to a place, in front of what stands there and with it. A place is given by positions
from the outermost body inwards. The last one counts the slots in front: it leads to a slot that
holds no expression or, behind all slots, to the end of the innermost body. -/
inductive Cut : Body → List Nat → Body → Body → Prop
  | missing : Cut missing [0] (done "") missing
  | done {text : String} : Cut (done text) [0] (done "") (done text)
  | slot {text : String} {slot : Slot} {rest : Body} (h : ∀ e, slot ≠ .expression e) :
      Cut (cons text slot rest) [0] (.done text) (cons text slot (.done ""))
  | inside {text : String} {label : Label} {inner rest before reached : Body} {place : List Nat}
      (h : Cut inner place before reached) : Cut (nested text label inner rest) (0 :: place)
        (nested text label before (.done "")) (nested text label reached (.done ""))
  | behind {text : String} {slot : Slot} {rest before reached : Body} {n : Nat} {place : List Nat}
      (h : Cut rest (n :: place) before reached) : Cut (cons text slot rest) ((n + 1) :: place)
        (cons text slot before) (cons text slot reached)

/-- Every place has a last position. -/
theorem Cut.exists_cons {body before reached : Body} {place : List Nat}
    (h : body.Cut place before reached) : ∃ n path, place = n :: path := by
  cases h <;> exact ⟨_, _, rfl⟩

theorem literals_cons (text : String) (slot : Slot) (rest : Body) (last : Option Column) :
    (cons text slot rest).literals last =
      (cons text slot (done "")).literals last ++ rest.literals slot.column? := by
  cases slot <;> simp [cons, literals, Slot.column?]

/-- A body that is cut has no other literals. -/
theorem Cut.literals_sublist {body before reached : Body} {place : List Nat}
    (h : body.Cut place before reached) (last : Option Column) :
    (before.literals last).Sublist (body.literals last) ∧
      (reached.literals last).Sublist (body.literals last) := by
  induction h generalizing last with
  | missing | done => exact ⟨List.Sublist.refl _, List.Sublist.refl _⟩
  | slot h =>
    rw [literals_cons _ _ (_ : Body)]
    exact ⟨List.nil_sublist _, List.sublist_append_left _ _⟩
  | inside h ih =>
    obtain ⟨hbefore, hreached⟩ := ih none
    exact ⟨hbefore.append (List.nil_sublist _), hreached.append (List.nil_sublist _)⟩
  | @behind text slot rest before reached n place h ih =>
    obtain ⟨hbefore, hreached⟩ := ih slot.column?
    rw [literals_cons text slot rest, literals_cons text slot before,
      literals_cons text slot reached]
    exact ⟨hbefore.append_left _, hreached.append_left _⟩

end Body

/-- A traversal of expressions fails at a place of one: it passes what stands in front of the place,
and with what stands there it fails. -/
def Expr.FailsAt {α : Type} (traverse : Expr → Except Failure α) (e : Expr) (place : List Nat)
    (f : Failure) : Prop :=
  ∃ before reached, e.body.Cut place before reached ∧
    (∃ a, traverse { e with body := before } = .ok a) ∧
      traverse { e with body := reached } = .error f

/-! ### Faults -/

/-- What no traversal passes: an end without text, or a literal without serial form. -/
inductive Fault where
  | noText
  | noSerial (failure : Failure)

namespace Fault

/-- The failure of a traversal with a name that comes to a fault. -/
def failure (traversal : String) : Fault → Failure
  | noText => .noBody traversal
  | noSerial failure => failure

theorem category_failure (fault : Fault) (traversal other : String) :
    (fault.failure traversal).category = (fault.failure other).category := by
  cases fault <;> rfl

/-- A fault inside a slot. -/
def inside (found : List Nat × Fault) : List Nat × Fault := (0 :: found.1, found.2)

/-- A fault behind a slot. -/
def behind (found : List Nat × Fault) : List Nat × Fault :=
  (found.1.modifyHead (· + 1), found.2)

/-- A traversal with a name answers where no fault is found, and fails with the one that is. -/
def Decides {α : Type} (traversal : String) (found? : Option (List Nat × Fault))
    (r : Except Failure α) : Prop :=
  match found? with
  | none => ∃ a, r = .ok a
  | some found => r = .error (found.2.failure traversal)

end Fault

/-- The fault of a literal in the first slot. -/
def Value.fault? (v : Value) : Option (List Nat × Fault) :=
  match Literal.serialize v with
  | .error failure => some ([0], .noSerial failure)
  | .ok _ => none

/-- The first fault of a body, with its place. -/
def Body.fault? : Body → Option (List Nat × Fault)
  | missing => some ([0], .noText)
  | done _ => none
  | column _ _ rest | raw _ _ rest => rest.fault?.map Fault.behind
  | nested _ _ inner rest => (inner.fault?.map Fault.inside).or (rest.fault?.map Fault.behind)
  | literal _ v rest => v.fault?.or (rest.fault?.map Fault.behind)

/-- The first fault of the first slot. -/
def Slot.fault? : Slot → Option (List Nat × Fault)
  | column _ | raw _ => none
  | expression e => e.body.fault?.map Fault.inside
  | literal v => v.fault?

theorem Slot.place_of_fault? {slot : Slot} {found : List Nat × Fault}
    (hslot : ∀ e, slot ≠ .expression e) (h : slot.fault? = some found) : found.1 = [0] := by
  cases slot with
  | column | raw => cases h
  | expression e => exact absurd rfl (hslot e)
  | literal v =>
    change v.fault? = some found at h
    unfold Value.fault? at h
    split at h <;> cases h
    rfl

namespace Body

theorem fault?_cons (text : String) (slot : Slot) (rest : Body) :
    (cons text slot rest).fault? = slot.fault?.or (rest.fault?.map Fault.behind) := by
  cases slot <;> rfl

/-- Where a body is cut in front of a fault and behind it, this fault is its first one. -/
theorem Cut.fault?_eq {body before reached : Body} {place : List Nat} {found : List Nat × Fault}
    (h : body.Cut place before reached) (hbefore : before.fault? = none)
    (hreached : reached.fault? = some found) : body.fault? = some found ∧ found.1 = place := by
  induction h generalizing found with
  | missing =>
    cases hreached
    exact ⟨rfl, rfl⟩
  | done => cases hreached
  | slot h =>
    rw [fault?_cons, fault?, Option.map_none, Option.or_none] at hreached
    rw [fault?_cons, hreached]
    exact ⟨rfl, Slot.place_of_fault? h hreached⟩
  | inside h ih =>
    simp only [fault?, Option.map_none, Option.or_none, Option.map_eq_none_iff,
      Option.map_eq_some_iff] at hbefore hreached
    obtain ⟨found, hfound, rfl⟩ := hreached
    obtain ⟨hinner, rfl⟩ := ih hbefore hfound
    rw [fault?, hinner]
    exact ⟨rfl, rfl⟩
  | behind h ih =>
    rw [fault?_cons, Option.or_eq_none_iff, Option.map_eq_none_iff] at hbefore
    rw [fault?_cons, hbefore.1, Option.none_or, Option.map_eq_some_iff] at hreached
    obtain ⟨found, hfound, rfl⟩ := hreached
    obtain ⟨hrest, hplace⟩ := ih hbefore.2 hfound
    rw [fault?_cons, hbefore.1, hrest]
    exact ⟨rfl, by rw [Fault.behind, hplace]; rfl⟩

/-- A body is cut at the place of its first fault: what leads up to it has none, and what reaches it
has this one. -/
theorem exists_cut_of_fault? {body : Body} {found : List Nat × Fault}
    (h : body.fault? = some found) :
    ∃ before reached, body.Cut found.1 before reached ∧ before.fault? = none ∧
      reached.fault? = some found := by
  induction body using cons_induction generalizing found with
  | missing =>
    cases h
    exact ⟨_, _, .missing, rfl, rfl⟩
  | done text => cases h
  | cons text slot rest ihSlot ih =>
    rw [fault?_cons] at h
    -- The fault of the slot comes before the one behind it.
    rcases hslot : slot.fault? with _ | found'
    · rw [hslot, Option.none_or] at h
      obtain ⟨⟨place, fault⟩, hrest, rfl⟩ := Option.map_eq_some_iff.mp h
      obtain ⟨before, reached, hcut, hbefore, hreached⟩ := ih hrest
      obtain ⟨n, path, rfl⟩ := hcut.exists_cons
      refine ⟨_, _, hcut.behind, ?_, ?_⟩
      · rw [fault?_cons, hslot, hbefore]
        rfl
      · rw [fault?_cons, hslot, hreached]
        rfl
    · rw [hslot, Option.some_or] at h
      obtain rfl := Option.some.inj h
      cases slot with
      | column | raw => cases hslot
      | expression e =>
        obtain ⟨found, hinner, rfl⟩ := Option.map_eq_some_iff.mp hslot
        obtain ⟨before, reached, hcut, hbefore, hreached⟩ := ihSlot e rfl hinner
        refine ⟨_, _, hcut.inside, ?_, ?_⟩
        · rw [fault?, hbefore]
          rfl
        · rw [fault?, hreached]
          rfl
      | literal v =>
        have hliteral : ∀ e, Slot.literal v ≠ .expression e := by rintro e ⟨⟩
        obtain ⟨place, fault⟩ := found'
        obtain rfl : place = [0] := Slot.place_of_fault? hliteral hslot
        refine ⟨_, _, Cut.slot hliteral, rfl, ?_⟩
        rw [fault?_cons, hslot]
        rfl

end Body

/-! ### Traversals -/

namespace Fault.Decides

variable {α β : Type} {traversal : String} {found? found?' : Option (List Nat × Fault)}
  {x : Except Failure α}

theorem behind (h : Decides traversal found? x) :
    Decides traversal (found?.map Fault.behind) x := by
  cases found? <;> exact h

/-- What is made of an answer comes to the same fault. -/
theorem map (h : Decides traversal found? x) (f : α → β) :
    Decides traversal found? (do return f (← x)) := by
  rcases found? with _ | found
  · obtain ⟨a, rfl⟩ := h
    exact ⟨f a, rfl⟩
  · rw [show x = .error _ from h]
    rfl

/-- A slot and what is behind it come to a fault of the slot first. -/
theorem bind {f : α → Except Failure β} (hx : Decides traversal found? x)
    (hf : ∀ a, x = .ok a → Decides traversal found?' (f a)) :
    Decides traversal ((found?.map inside).or (found?'.map Fault.behind)) (x >>= f) := by
  rcases found? with _ | found
  · obtain ⟨a, rfl⟩ := hx
    exact (hf a rfl).behind
  · rw [show x = .error _ from hx]
    rfl

end Fault.Decides

namespace Body

/-- Walking comes to the first fault. -/
theorem decides_walk (body : Body) (last : Option Column) :
    Fault.Decides "walk" body.fault? (body.walk last) := by
  induction body generalizing last with
  | missing => exact rfl
  | done text => exact ⟨_, rfl⟩
  | column text c rest ih => exact ((ih (some c)).map _).behind
  | raw text insert rest ih => exact ((ih none).map _).behind
  | nested text label inner rest ihInner ihRest =>
    exact (ihInner none).bind fun w _ ↦ (ihRest none).map _
  | literal text v rest ih =>
    by_cases hv : v = .undefined
    · subst hv
      exact ((ih none).map _).behind
    · rw [walk_literal hv, fault?, Value.fault?]
      rcases Literal.serialize v with failure | serial
      · exact rfl
      · exact ((ih none).map _).behind

/-- A sequence of renderings answers as a sequence of answers does. -/
private theorem fst_outcome_bind {α β : Type} (x : Render α) (f : α → Render β) (b : Bindings) :
    ((x >>= f).outcome b).1 =
      (x.outcome b).1 >>= fun a ↦ ((f a).outcome (x.outcome b).2).1 := by
  rw [Render.outcome_bind]
  rcases x.outcome b with ⟨failure | a, b₁⟩ <;> rfl

/-- Rendering comes to the first fault where no literal is undefined. -/
theorem decides_render {body : Body} {last : Option Column}
    (hdefined : ∀ l ∈ body.literals last, l.1 ≠ .undefined) (scope : Scope) (soFar : String)
    (position : Nat) (b : Bindings) :
    Fault.Decides "render" body.fault? ((body.render scope soFar position last).outcome b).1 := by
  induction body generalizing last soFar position b with
  | missing => exact rfl
  | done text => exact ⟨_, rfl⟩
  | column text c rest ih => exact (ih hdefined _ _ _).behind
  | raw text insert rest ih => exact (ih hdefined _ _ _).behind
  | nested text label inner rest ihInner ihRest =>
    obtain ⟨hinner, hrest⟩ := List.forall_mem_append.mp hdefined
    rw [render, fst_outcome_bind]
    exact (ihInner hinner _ _ _).bind fun sql _ ↦ ihRest hrest _ _ _
  | literal text v rest ih =>
    obtain ⟨hv, hrest⟩ := List.forall_mem_cons.mp hdefined
    rw [render_literal hv, Render.outcome_bind, Render.outcome_bindLiteral, fault?,
      Value.fault?]
    rcases Literal.serialize v with failure | serial
    · exact rfl
    · exact (ih hrest _ _ _).behind

/-- Walking meets a literal with its type for each literal that is not undefined. -/
theorem types_of_walk {body : Body} {last : Option Column} {w : Walked}
    (hdefined : ∀ l ∈ body.literals last, l.1 ≠ .undefined) (h : body.walk last = .ok w) :
    w.seen.map Prod.snd = (body.literals last).map Prod.snd := by
  induction body generalizing last w with
  | missing => cases h
  | done text =>
    cases h
    rfl
  | column text c rest ih | raw text insert rest ih =>
    obtain ⟨w, hw, h⟩ := Succeeding.bind_eq_ok.mp h
    cases h
    simpa [Walked.after, literals] using ih hdefined hw
  | nested text label inner rest ihInner ihRest =>
    obtain ⟨hinner, hrest⟩ := List.forall_mem_append.mp hdefined
    obtain ⟨w, hw, h⟩ := Succeeding.bind_eq_ok.mp h
    obtain ⟨v, hv, h⟩ := Succeeding.bind_eq_ok.mp h
    cases h
    rw [Walked.after, literals, List.map_append, List.map_append, ihInner hinner hw,
      ihRest hrest hv]
  | literal text v rest ih =>
    obtain ⟨hv, hrest⟩ := List.forall_mem_cons.mp hdefined
    rw [walk_literal hv] at h
    obtain ⟨serial, -, h⟩ := Succeeding.bind_eq_ok.mp h
    obtain ⟨w, hw, h⟩ := Succeeding.bind_eq_ok.mp h
    cases h
    exact congrArg (_ :: ·) (ih hrest hw)

end Body

namespace Expr

variable {scope : Scope} {e : Expr} {b : Bindings}

/-- No literal of an expression that is rendered is undefined. -/
private theorem defined_of_done {sql : String} {b' : Bindings}
    (h : (e.render scope).Done b sql b') : ∀ l ∈ e.literals, l.1 ≠ .undefined := by
  obtain ⟨vs, hsent, -⟩ := (binds_render .null scope e).bound (Writing.done_rendering.mpr h)
  intro l hl
  obtain ⟨p, -, hp⟩ := Succeeding.exists_of_forall₂ hsent hl
  exact hp.defined

/-- An expression that is walked is rendered where no literal is undefined. -/
private theorem exists_done_of_walk {w : Walked} (hdefined : ∀ l ∈ e.literals, l.1 ≠ .undefined)
    (h : e.walk = .ok w) : ∃ sql b', (e.render scope).Done b sql b' := by
  have hwalk := e.body.decides_walk none
  have hrender := Body.decides_render hdefined scope "" 0 b
  rcases hfault : e.body.fault? with _ | found
  · rw [hfault] at hrender
    obtain ⟨sql, hsql⟩ := hrender
    exact ⟨sql, _, Prod.ext hsql rfl⟩
  · rw [hfault] at hwalk
    cases h.symm.trans hwalk

/-- A traversal that comes to the first fault of whatever expression fails there, and only there. -/
private theorem failsAt_iff {α : Type} {traversal : String} {traverse : Expr → Except Failure α}
    {place : List Nat} {fault : Fault}
    (h : ∀ e' : Expr, (∀ l ∈ e'.literals, l.1 ≠ .undefined) →
      Fault.Decides traversal e'.body.fault? (traverse e'))
    (hdefined : ∀ l ∈ e.literals, l.1 ≠ .undefined) (hfirst : e.body.fault? = some (place, fault))
    (place' : List Nat) (f : Failure) :
    e.FailsAt traverse place' f ↔ place' = place ∧ f = fault.failure traversal := by
  -- A cut has no other literals than the expression, so none of them is undefined.
  have hcuts : ∀ {before reached}, e.body.Cut place' before reached →
      Fault.Decides traversal before.fault? (traverse { e with body := before }) ∧
        Fault.Decides traversal reached.fault? (traverse { e with body := reached }) :=
    fun {before reached} hcut ↦
      ⟨h { e with body := before } fun l hl ↦ hdefined l ((hcut.literals_sublist none).1.subset hl),
      h { e with body := reached } fun l hl ↦ hdefined l ((hcut.literals_sublist none).2.subset hl)⟩
  constructor
  · rintro ⟨before, reached, hcut, ⟨a, hpassed⟩, hfailed⟩
    obtain ⟨hbefore, hreached⟩ := hcuts hcut
    rw [hpassed] at hbefore
    rw [hfailed] at hreached
    rcases hnone : before.fault? with _ | found
    · rcases hfound : reached.fault? with _ | found
      · rw [hfound] at hreached
        obtain ⟨a, ⟨⟩⟩ := hreached
      · rw [hfound] at hreached
        obtain ⟨hfault, rfl⟩ := hcut.fault?_eq hnone hfound
        obtain rfl := Option.some.inj (hfirst.symm.trans hfault)
        exact ⟨rfl, Except.error.inj hreached⟩
    · rw [hnone] at hbefore
      cases hbefore
  · rintro ⟨rfl, rfl⟩
    obtain ⟨before, reached, hcut, hnone, hfound⟩ := Body.exists_cut_of_fault? hfirst
    obtain ⟨hbefore, hreached⟩ := hcuts hcut
    rw [hnone] at hbefore
    rw [hfound] at hreached
    exact ⟨before, reached, hcut, hbefore, hreached⟩

/-- Rendering and walking an expression succeed and fail together. From any bindings an expression
is rendered exactly when it is walked and none of its literals is undefined. Then the values met are
bound under the numbers that follow, and the placeholders written for them have the types met. Where
no literal is undefined and rendering fails, walking fails with a failure of the same category, and
each of them does so at one place only, which is the same. -/
theorem render_walk (scope : Scope) (e : Expr) (b : Bindings) :
    ((∃ sql b', (e.render scope).Done b sql b') ↔
      (∃ w, e.walk = .ok w) ∧ ∀ l ∈ e.literals, l.1 ≠ .undefined) ∧
    (∀ sql b', (e.render scope).Done b sql b' → ∃ w, e.walk = .ok w ∧
      b' = b.extend (w.seen.map Prod.fst) ∧
      sql = (e.outline scope.column).write b.count ∧
      (e.outline scope.column).literals.map Prod.snd = w.seen.map Prod.snd) ∧
    ((∀ l ∈ e.literals, l.1 ≠ .undefined) →
      ∀ f b', (e.render scope).outcome b = (.error f, b') → ∃ place g, e.walk = .error g ∧
        g.category = f.category ∧
        (∀ place' f', e.FailsAt (fun e ↦ ((e.render scope).outcome b).1) place' f' ↔
          place' = place ∧ f' = f) ∧
        ∀ place' g', e.FailsAt walk place' g' ↔ place' = place ∧ g' = g) := by
  refine ⟨⟨?_, ?_⟩, ?_, ?_⟩
  · rintro ⟨sql, b', h⟩
    obtain ⟨w, hw, -⟩ := Body.walk_of_render h
    exact ⟨⟨w, hw⟩, defined_of_done h⟩
  · rintro ⟨⟨w, hw⟩, hdefined⟩
    exact exists_done_of_walk hdefined hw
  · intro sql b' h
    obtain ⟨w, hw, hb⟩ := Body.walk_of_render h
    refine ⟨w, hw, hb, (written_outline h).1, ?_⟩
    rw [outline, Body.literals_outline, Body.types_of_walk (defined_of_done h) hw]
  · intro hdefined f b' h
    have hrender := Body.decides_render hdefined scope "" 0 b
    have hfails : ((e.render scope).outcome b).1 = .error f := congrArg Prod.fst h
    rcases hfound : e.body.fault? with _ | ⟨place, fault⟩
    · rw [hfound] at hrender
      obtain ⟨sql, hsql⟩ := hrender
      cases hsql.symm.trans hfails
    · rw [hfound] at hrender
      obtain rfl := Except.error.inj (hfails.symm.trans hrender)
      have hwalk := e.body.decides_walk none
      rw [hfound] at hwalk
      refine ⟨place, fault.failure "walk", hwalk, fault.category_failure _ _, ?_, ?_⟩
      · exact failsAt_iff (fun e' he' ↦ Body.decides_render he' scope "" 0 b) hdefined hfound
      · exact failsAt_iff (fun e' _ ↦ e'.body.decides_walk none) hdefined hfound

private def ownColumn (name type : String) : Column := { name, type, table := some "users" }

/-- A comparison with a number, and one with a value in an expression inside. -/
private def comparisons (v : Value) : Expr :=
  weave "" [(.column (ownColumn "id" "UInt64"), " = "), (.value (.int 5), " AND "),
    (.expression (.eq (.column (ownColumn "email" "String")) (.value v)), "")]

/-- Two values are bound behind two others. A mapping with a key that no JSON text has is refused in
the second slot of the third one, and only there. -/
theorem render_walk_comparisons :
    (∃ w, (comparisons (.text "a@b.c")).walk = .ok w ∧
      w.seen.map Prod.snd = ["UInt64", "String"] ∧
      ((comparisons (.text "a@b.c")).render {}).Done { count := 2 }
        "`users`.`id` = \x7bp_3:UInt64\x7d AND `users`.`email` = \x7bp_4:String\x7d"
        (Bindings.extend { count := 2 } (w.seen.map Prod.fst))) ∧
    ∃ g, (comparisons (.map [(.tuple [], .null)])).walk = .error g ∧ g.category = .badType ∧
      ∀ place g', (comparisons (.map [(.tuple [], .null)])).FailsAt walk place g' ↔
        place = [2, 1] ∧ g' = g := by
  constructor
  · have hdone : ((comparisons (.text "a@b.c")).render {}).Done { count := 2 } _
        (Bindings.extend { count := 2 } [.int 5, .text "a@b.c"]) := rfl
    obtain ⟨w, hw, hb, -, htypes⟩ := (render_walk {} _ { count := 2 }).2.1 _ _ hdone
    exact ⟨w, hw, htypes.symm.trans rfl, hb ▸ hdone⟩
  · have hdefined : ∀ l ∈ (comparisons (.map [(.tuple [], .null)])).literals, l.1 ≠ .undefined := by
      change ∀ l ∈ [(Value.int 5, "UInt64"), (Value.map [(.tuple [], .null)], "String")], _
      simp
    obtain ⟨place, g, hw, hcategory, -, hfails⟩ :=
      (render_walk {} _ { count := 2 }).2.2 hdefined _ _ rfl
    have hfirst : (comparisons (.map [(.tuple [], .null)])).body.fault? = some ([2, 1], _) := rfl
    obtain ⟨rfl, -⟩ := (hfails _ _).mp ((failsAt_iff (fun e' _ ↦ e'.body.decides_walk none)
      hdefined hfirst _ _).mpr ⟨rfl, rfl⟩)
    exact ⟨g, hw, hcategory, hfails⟩

end Expr

end Columnar
