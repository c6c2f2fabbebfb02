import Columnar.Traced

/-!
# Computations over a state

A session computation answers or fails, logs, and changes a state; what it changed before a
failure stays changed. `onFirst` and `onSecond` run a computation on one half of a state.
-/

namespace Columnar

/-- A computation that changes a state of type `σ`, also when it fails. -/
def Session (σ α : Type) := σ → Traced α × σ

namespace Session

variable {σ τ α β : Type}

/-- Goes on with an answer in the changed state; after a failure the state stays as it is. -/
def andThen (x : Session σ α) (f : α → Session σ β) : Session σ β := fun s ↦
  match x s with
  | (⟨log, .ok a⟩, s) =>
    let (y, s) := f a s
    (⟨log ++ y.log, y.result⟩, s)
  | (⟨log, .error e⟩, s) => (⟨log, .error e⟩, s)

/-- Session computations run in sequence. -/
instance : Monad (Session σ) where
  pure a := fun s ↦ (pure a, s)
  bind := andThen

/-- A computation that leaves the state alone. -/
def ofTraced (x : Traced α) : Session σ α := fun s ↦ (x, s)

/-- Traced computations leave the state alone. -/
instance : MonadLift Traced (Session σ) where
  monadLift := ofTraced

/-- Failures leave the state as it is. -/
instance : MonadExceptOf Failure (Session σ) where
  throw e := fun s ↦ (throw e, s)
  tryCatch x handler := fun s ↦
    match x s with
    | (⟨log, .error e⟩, s) =>
      let (y, s) := handler e s
      (⟨log ++ y.log, y.result⟩, s)
    | done => done

/-- The state can be read and replaced. -/
instance : MonadStateOf σ (Session σ) where
  get := fun s ↦ (pure s, s)
  set s := fun _ ↦ (pure (), s)
  modifyGet f := fun s ↦
    let (a, s) := f s
    (pure a, s)

/-- Runs a computation on the first half of a state. -/
def onFirst (x : Session σ α) : Session (σ × τ) α := fun s ↦
  let (y, first) := x s.1
  (y, (first, s.2))

/-- Runs a computation on the second half of a state. -/
def onSecond (x : Session τ α) : Session (σ × τ) α := fun s ↦
  let (y, second) := x s.2
  (y, (s.1, second))

/-- An answer changes nothing. -/
@[simp] theorem pure_apply (a : α) (s : σ) : (pure a : Session σ α) s = (pure a, s) := rfl

/-- A computation on the first half leaves the second alone. -/
theorem onFirst_snd (x : Session σ α) (s : σ × τ) : (onFirst x s).2.2 = s.2 := rfl

/-- A computation on the second half leaves the first alone. -/
theorem onSecond_fst (x : Session τ α) (s : σ × τ) : (onSecond x s).2.1 = s.1 := rfl

end Session

end Columnar
