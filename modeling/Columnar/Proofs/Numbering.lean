import Columnar.Statement.Compile

/-!
# Numbering of parameters

A computation that writes SQL and succeeds has bound literals under the numbers that follow the
last one taken, in order and without gaps: it leaves `Bindings.extend`. `Render.Done` and
`Writing.Done` say what a computation answers and leaves; one lemma for each way to compose
computations says what the whole does in terms of its parts. `nodup_names_numbered` says that names
given in a row are distinct.
-/

namespace Columnar

namespace Bindings

/-- Values under the names of the numbers that follow `n`. -/
def numbered (n : Nat) : List Value → List (String × Value)
  | [] => []
  | v :: vs => (nameOf (n + 1), v) :: numbered (n + 1) vs

/-- The bindings after values were bound one after another. -/
def extend (b : Bindings) (vs : List Value) : Bindings :=
  ⟨b.count + vs.length, b.params ++ numbered b.count vs⟩

/-- Binding no value changes nothing. -/
@[simp] theorem extend_nil (b : Bindings) : b.extend [] = b := by
  simp [extend, numbered]

private theorem numbered_append (n : Nat) (vs ws : List Value) :
    numbered n (vs ++ ws) = numbered n vs ++ numbered (n + vs.length) ws := by
  induction vs generalizing n with
  | nil => simp [numbered]
  | cons v vs ih =>
    have hn : n + 1 + vs.length = n + (vs.length + 1) := by omega
    simp [numbered, ih, hn]

/-- Values bound in two goes are bound in one. -/
@[simp] theorem extend_extend (b : Bindings) (vs ws : List Value) :
    (b.extend vs).extend ws = b.extend (vs ++ ws) := by
  simp [extend, numbered_append, Nat.add_assoc]

/-- The values stand in the order in which they were bound. -/
@[simp] theorem values_numbered (n : Nat) (vs : List Value) :
    (numbered n vs).map Prod.snd = vs := by
  induction vs generalizing n with
  | nil => rfl
  | cons v vs ih => simp [numbered, ih]

/-- As many values are put under the same names. -/
theorem names_numbered {n : Nat} {vs ws : List Value} (h : vs.length = ws.length) :
    (numbered n vs).map Prod.fst = (numbered n ws).map Prod.fst := by
  induction vs generalizing n ws with
  | nil =>
    cases ws with
    | nil => rfl
    | cons w ws => cases h
  | cons v vs ih =>
    cases ws with
    | nil => cases h
    | cons w ws =>
      rw [numbered, numbered, List.map_cons, List.map_cons, ih (Nat.succ.inj h)]

/-- What is bound from the start are values under the first numbers. -/
theorem params_extend_empty (vs : List Value) :
    (extend {} vs).params = numbered 0 vs := by
  simp [extend]

theorem nameOf_injective {m n : Nat} (h : nameOf m = nameOf n) : m = n := by
  have hc := congrArg String.toList h
  simp only [nameOf, Text.ofNat, String.toList_append, String.toList_ofList,
    List.append_cancel_left_eq] at hc
  have hd := congrArg (Nat.ofDigitChars 10 · 0) hc
  simpa [Nat.ofDigitChars_toDigits] using hd

private theorem lt_of_mem_numbered {n : Nat} {vs : List Value} {name : String}
    (h : name ∈ (numbered n vs).map Prod.fst) : ∃ k, n < k ∧ name = nameOf k := by
  induction vs generalizing n with
  | nil => simp [numbered] at h
  | cons v vs ih =>
    simp only [numbered, List.map_cons, List.mem_cons] at h
    rcases h with h | h
    · exact ⟨n + 1, by omega, h⟩
    · obtain ⟨k, hk, he⟩ := ih h
      exact ⟨k, by omega, he⟩

/-- Names given in a row are distinct. -/
theorem nodup_names_numbered (n : Nat) (vs : List Value) :
    ((numbered n vs).map Prod.fst).Nodup := by
  induction vs generalizing n with
  | nil => simp [numbered]
  | cons v vs ih =>
    simp only [numbered, List.map_cons, List.nodup_cons]
    refine ⟨?_, ih _⟩
    intro hm
    obtain ⟨k, hk, he⟩ := lt_of_mem_numbered hm
    have := nameOf_injective he
    omega

end Bindings

/-! ### Rendering -/

namespace Render

variable {α β : Type}

/-- What a rendering that starts from `b` answers and leaves. -/
def outcome (x : Render α) (b : Bindings) : Except Failure α × Bindings := x.run b

/-- The rendering answers `a` and leaves the bindings `b'` when it starts from `b`. -/
def Done (x : Render α) (b : Bindings) (a : α) (b' : Bindings) : Prop :=
  x.outcome b = (.ok a, b')

/-- A sequence goes on from what its first part answers and leaves. -/
theorem outcome_bind (x : Render α) (f : α → Render β) (b : Bindings) :
    (x >>= f).outcome b = match x.outcome b with
      | (.ok a, b₁) => (f a).outcome b₁
      | (.error e, b₁) => (.error e, b₁) := by
  unfold outcome
  rw [ExceptT.run_bind]
  simp only [bind, StateT.bind]
  rcases x.run b with ⟨e | a, b₁⟩ <;> rfl

/-- A sequence is done when both of its parts are. -/
theorem done_bind {x : Render α} {f : α → Render β} {b b' : Bindings} {r : β} :
    Done (x >>= f) b r b' ↔ ∃ a b₁, Done x b a b₁ ∧ Done (f a) b₁ r b' := by
  unfold Done
  rw [outcome_bind]
  constructor
  · intro h
    rcases hx : x.outcome b with ⟨e | a, b₁⟩
    · rw [hx] at h
      cases h
    · rw [hx] at h
      exact ⟨a, b₁, rfl, h⟩
  · rintro ⟨a, b₁, hx, hf⟩
    rw [hx]
    exact hf

/-- An answer binds nothing. -/
theorem done_pure {a r : α} {b b' : Bindings} :
    Done (pure a) b r b' ↔ r = a ∧ b' = b := by
  change ((Except.ok a, b) : Except Failure α × Bindings) = (.ok r, b') ↔ _
  simp [eq_comm]

/-- A failure is never done. -/
theorem not_done_throw {e : Failure} {b b' : Bindings} {r : α} :
    ¬ Done (throw e : Render α) b r b' := by
  change ¬ ((Except.error e, b) : Except Failure α × Bindings) = (.ok r, b')
  simp

/-- A literal takes the next number, and is bound under it when it has a serial form. -/
theorem outcome_bindLiteral (v : Value) (type : String) (b : Bindings) :
    (bindLiteral v type).outcome b = match Literal.serialize v with
      | .ok serial => (.ok (placeholder (Bindings.nameOf (b.count + 1)) type), b.extend [serial])
      | .error e => (.error e, b.next) := by
  unfold bindLiteral
  cases Literal.serialize v <;> rfl

/-- A literal is bound to its serial form, under the next number. -/
theorem done_bindLiteral {v : Value} {type place : String} {b b' : Bindings} :
    Done (bindLiteral v type) b place b' ↔ ∃ serial, Literal.serialize v = .ok serial ∧
      place = placeholder (Bindings.nameOf (b.count + 1)) type ∧ b' = b.extend [serial] := by
  unfold Done
  rw [outcome_bindLiteral]
  cases Literal.serialize v with
  | error e => simp
  | ok serial => simp [eq_comm]

end Render

/-! ### Writing -/

namespace Writing

variable {α β : Type}

/-- The writing answers `a` and leaves the bindings `b'` when it starts from `b`. -/
def Done (x : Writing α) (b : Bindings) (a : α) (b' : Bindings) : Prop :=
  (x b).result = .ok (a, b')

/-- A sequence is done when both of its parts are. -/
theorem done_bind {x : Writing α} {f : α → Writing β} {b b' : Bindings} {r : β} :
    Done (x >>= f) b r b' ↔ ∃ a b₁, Done x b a b₁ ∧ Done (f a) b₁ r b' := by
  have hb : ((x >>= f) b).result = (x b).result.bind fun p ↦ (f p.1 p.2).result :=
    Traced.result_bind (x b) fun p ↦ f p.1 p.2
  unfold Done
  rw [hb]
  constructor
  · intro h
    rcases hx : (x b).result with e | ⟨a, b₁⟩
    · rw [hx] at h
      cases h
    · rw [hx] at h
      exact ⟨a, b₁, rfl, h⟩
  · rintro ⟨a, b₁, hx, hf⟩
    rw [hx]
    exact hf

/-- An answer binds nothing. -/
theorem done_pure {a r : α} {b b' : Bindings} :
    Done (pure a) b r b' ↔ r = a ∧ b' = b := by
  change (Except.ok (a, b) : Except Failure (α × Bindings)) = .ok (r, b') ↔ _
  simp [eq_comm]

/-- A failure is never done. -/
theorem not_done_throw {e : Failure} {b b' : Bindings} {r : α} :
    ¬ Done (throw e : Writing α) b r b' := by
  change ¬ (Except.error e : Except Failure (α × Bindings)) = .ok (r, b')
  simp

/-- A check binds nothing. -/
theorem done_check {x : Except Failure α} {b b' : Bindings} {r : α} :
    Done (liftM x : Writing α) b r b' ↔ x = .ok r ∧ b' = b := by
  have hb : ((liftM x : Writing α) b).result = x.bind fun a ↦ .ok (a, b) :=
    Traced.result_bind (.ofExcept x) fun a ↦ pure (a, b)
  unfold Done
  rw [hb]
  cases x <;> simp [Except.bind, eq_comm]

/-- A look-up that may log binds nothing. -/
theorem done_traced {x : Traced α} {b b' : Bindings} {r : α} :
    Done (liftM x : Writing α) b r b' ↔ x.result = .ok r ∧ b' = b := by
  have hb : ((liftM x : Writing α) b).result = x.result.bind fun a ↦ .ok (a, b) :=
    Traced.result_bind x fun a ↦ pure (a, b)
  unfold Done
  rw [hb]
  cases x.result <;> simp [Except.bind, eq_comm]

/-- A check in front leaves the rest to bind. -/
theorem done_check_bind {x : Except Failure α} {f : α → Writing β} {b b' : Bindings} {r : β} :
    Done (liftM x >>= f) b r b' ↔ ∃ a, x = .ok a ∧ Done (f a) b r b' := by
  simp only [done_bind, done_check, and_assoc, exists_and_left, exists_eq_left]

/-- A look-up in front leaves the rest to bind. -/
theorem done_traced_bind {x : Traced α} {f : α → Writing β} {b b' : Bindings} {r : β} :
    Done (liftM x >>= f) b r b' ↔ ∃ a, x.result = .ok a ∧ Done (f a) b r b' := by
  simp only [done_bind, done_traced, and_assoc, exists_and_left, exists_eq_left]

/-- The bindings can be read. -/
theorem done_get {b b' r : Bindings} : Done (get : Writing Bindings) b r b' ↔ r = b ∧ b' = b := by
  change (Except.ok (b, b) : Except Failure (Bindings × Bindings)) = .ok (r, b') ↔ _
  simp [eq_comm]

/-- Rendering in a clause is done when the rendering is. -/
theorem done_rendering {x : Render α} {b b' : Bindings} {r : α} :
    Done (rendering x) b r b' ↔ Render.Done x b r b' := by
  unfold Done rendering Render.Done Render.outcome
  rcases (x.run b : Except Failure α × Bindings) with ⟨e | a, b₁⟩
  · simp
  · simp [Prod.ext_iff]

/-- A subquery that is inlined binds the values of its statement. -/
theorem done_inlining {s : Traced Statement} {b b' : Bindings} {r : String} :
    Done (inlining s) b r b' ↔ ∃ t, s.result = .ok t ∧ t.inline b = (r, b') := by
  unfold inlining
  rw [done_bind]
  constructor
  · rintro ⟨t, b₁, ht, hr⟩
    obtain ⟨hs, rfl⟩ := done_traced.mp ht
    exact ⟨t, hs, Except.ok.inj hr⟩
  · rintro ⟨t, hs, ht⟩
    exact ⟨t, b, done_traced.mpr ⟨hs, rfl⟩, congrArg Except.ok ht⟩

end Writing

private theorem snd_rebind (params : List (String × Value)) (b : Bindings) :
    (Statement.rebind params b).2 = b.extend (params.map Prod.snd) := by
  induction params generalizing b with
  | nil => simp [Statement.rebind]
  | cons p rest ih =>
    have hp : b.next.push p.2 = b.extend [p.2] := rfl
    simp only [Statement.rebind, ih, hp, Bindings.extend_extend, List.map_cons,
      List.singleton_append]

/-- An inlined statement's values are bound in their order. -/
theorem Statement.snd_inline (s : Statement) (b : Bindings) :
    (s.inline b).2 = b.extend (s.params.map Prod.snd) := snd_rebind s.params b

end Columnar
