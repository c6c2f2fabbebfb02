import Columnar.Client.Basic

/-!
# What session computations answer and leave

`Session.outcome` is what a computation answers and the state it leaves, without its log. Sequences,
computations on one half of a state and failures that are logged are read off it.
-/

namespace Columnar

/-- An answer without records, lifted to a log, is the answer. -/
@[simp] theorem Traced.result_liftM {α : Type} (x : Except Failure α) :
    (liftM x : Traced α).result = x := rfl

namespace Session

variable {σ τ α β : Type}

/-- What a computation answers and leaves, without its log. -/
def outcome (x : Session σ α) (s : σ) : Except Failure α × σ := ((x s).1.result, (x s).2)

/-- A sequence goes on from what its first part answers and leaves. -/
theorem outcome_bind (x : Session σ α) (f : α → Session σ β) (s : σ) :
    (x >>= f).outcome s = match x.outcome s with
      | (.ok a, s₁) => (f a).outcome s₁
      | (.error e, s₁) => (.error e, s₁) := by
  change ((andThen x f s).1.result, (andThen x f s).2) = _
  unfold outcome andThen
  rcases x s with ⟨⟨log, e | a⟩, s₁⟩ <;> rfl

/-- A traced computation leaves the state alone. -/
@[simp] theorem outcome_liftM (x : Traced α) (s : σ) :
    (liftM x : Session σ α).outcome s = (x.result, s) := rfl

@[simp] theorem outcome_pure (a : α) (s : σ) : (pure a : Session σ α).outcome s = (.ok a, s) := rfl

@[simp] theorem outcome_throw (e : Failure) (s : σ) :
    (throw e : Session σ α).outcome s = (.error e, s) := rfl

@[simp] theorem outcome_get (s : σ) : (get : Session σ σ).outcome s = (.ok s, s) := rfl

@[simp] theorem outcome_modify (f : σ → σ) (s : σ) :
    (modify f : Session σ PUnit).outcome s = (.ok ⟨⟩, f s) := rfl

/-- A sequence that ends in an answer of its own leaves what its first part leaves. -/
theorem outcome_bind_pure (x : Session σ α) (b : β) (s : σ) :
    (x >>= fun _ ↦ pure b).outcome s = ((x.outcome s).1.map fun _ ↦ b, (x.outcome s).2) := by
  rw [outcome_bind]
  rcases x.outcome s with ⟨e | a, s⟩ <;> rfl

/-- A row of computations that only log leaves the state alone. -/
theorem outcome_forM {ι : Type} {f : ι → Session σ PUnit}
    (hf : ∀ i s, (f i).outcome s = (.ok ⟨⟩, s)) (items : List ι) (s : σ) :
    (items.forM f).outcome s = (.ok ⟨⟩, s) := by
  induction items with
  | nil => rfl
  | cons i items ih =>
    change (f i >>= fun _ ↦ items.forM f).outcome s = _
    rw [outcome_bind, hf]
    exact ih

theorem outcome_onFirst (x : Session σ α) (s : σ × τ) :
    x.onFirst.outcome s = ((x.outcome s.1).1, (x.outcome s.1).2, s.2) := rfl

theorem outcome_onSecond (x : Session τ α) (s : σ × τ) :
    x.onSecond.outcome s = ((x.outcome s.2).1, s.1, (x.outcome s.2).2) := rfl

/-- A failure that is logged is passed on. -/
theorem outcome_logFailure (text : String) (x : Session σ α) (s : σ) :
    (x.logFailure text).outcome s = x.outcome s := by
  unfold logFailure outcome
  simp only [tryCatch, tryCatchThe, MonadExceptOf.tryCatch]
  rcases x s with ⟨⟨log, e | a⟩, s⟩ <;> rfl

end Session

namespace Client

variable {σ : Type}

@[simp] theorem outcome_rows (client : Client σ) (sql : String) (params : Params) (s : σ) :
    (client.rows sql params).outcome s = client.query sql params s := rfl

@[simp] theorem outcome_run (client : Client σ) (sql : String) (params : Params) (s : σ) :
    (client.run sql params).outcome s = client.command sql params s := rfl

end Client

end Columnar
