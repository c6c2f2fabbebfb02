import Columnar.Error

/-!
# Answers with a log

A traced computation gives an answer or a failure together with the records it logged on the
way; records logged before a failure are kept. `result_bind` and `log_bind` say how a sequence
of two computations answers and logs.
-/

namespace Columnar

/-- How important a record is. -/
inductive Severity where
  | debug | info | warning | error
  deriving DecidableEq, Repr

/-- The name of a severity in a log. -/
def Severity.name : Severity → String
  | debug => "DEBUG"
  | info => "INFO"
  | warning => "WARNING"
  | error => "ERROR"

/-- One line of a log. -/
structure LogRecord where
  severity : Severity
  text : String
  deriving DecidableEq, Repr

/-- Records in the order they were logged. -/
abbrev Log := List LogRecord

/-- An answer or a failure, with the records logged before it. -/
structure Traced (α : Type) where
  log : Log
  result : Except Failure α

namespace Traced

variable {α β : Type}

/-- Goes on with an answer; after a failure nothing more happens. -/
def andThen (x : Traced α) (f : α → Traced β) : Traced β :=
  match x.result with
  | .ok a => ⟨x.log ++ (f a).log, (f a).result⟩
  | .error e => ⟨x.log, .error e⟩

/-- Traced computations run in sequence. -/
instance : Monad Traced where
  pure a := ⟨[], .ok a⟩
  bind := andThen

/-- Fails without logging. -/
def fail (e : Failure) : Traced α := ⟨[], .error e⟩

/-- Failures are raised by `throw`; catching one keeps the records logged before it. -/
instance : MonadExceptOf Failure Traced where
  throw := fail
  tryCatch x handler :=
    match x.result with
    | .ok _ => x
    | .error e => ⟨x.log ++ (handler e).log, (handler e).result⟩

/-- An answer or a failure without records. -/
def ofExcept (x : Except Failure α) : Traced α := ⟨[], x⟩

/-- Computations that log nothing are traced computations. -/
instance : MonadLift (Except Failure) Traced where
  monadLift := ofExcept

/-- Logs one record. -/
def record (severity : Severity) (text : String) : Traced Unit := ⟨[⟨severity, text⟩], .ok ()⟩

/-- An answer logs nothing. -/
@[simp] theorem result_pure (a : α) : (pure a : Traced α).result = .ok a := rfl

/-- An answer has no records. -/
@[simp] theorem log_pure (a : α) : (pure a : Traced α).log = [] := rfl

/-- A sequence answers as the sequence of the answers does. -/
@[simp] theorem result_bind (x : Traced α) (f : α → Traced β) :
    (x >>= f).result = x.result.bind fun a ↦ (f a).result := by
  change (andThen x f).result = _
  unfold andThen
  cases x.result <;> rfl

/-- A sequence answers when both of its parts do. -/
theorem result_bind_eq_ok {x : Traced α} {f : α → Traced β} {r : β} :
    (x >>= f).result = .ok r ↔ ∃ a, x.result = .ok a ∧ (f a).result = .ok r := by
  rw [result_bind]
  cases x.result <;> simp [Except.bind]

/-- A sequence logs what its first part does, and what its second does if there is one. -/
theorem log_bind (x : Traced α) (f : α → Traced β) :
    (x >>= f).log = x.log ++ match x.result with
      | .ok a => (f a).log
      | .error _ => [] := by
  change (andThen x f).log = _
  unfold andThen
  cases x.result <;> simp

private theorem id_map_eq (x : Traced α) : id <$> x = x := by
  rcases x with ⟨log, e | a⟩
  · rfl
  · change (⟨log ++ [], .ok a⟩ : Traced α) = _
    rw [List.append_nil]

private theorem bind_assoc_eq {γ : Type} (x : Traced α) (f : α → Traced β) (g : β → Traced γ) :
    x >>= f >>= g = x >>= fun a ↦ f a >>= g := by
  rcases x with ⟨log, e | a⟩
  · rfl
  · change andThen (andThen _ f) g = andThen _ fun a ↦ andThen (f a) g
    simp only [andThen]
    cases (f a).result <;> simp

/-- It does not matter how a longer sequence is put together from two parts. -/
instance : LawfulMonad Traced := LawfulMonad.mk' Traced id_map_eq (fun _ _ ↦ rfl) bind_assoc_eq

/-- A row of computations answers as the row of their answers does. -/
theorem result_mapM (f : α → Traced β) (xs : List α) :
    (xs.mapM f).result = xs.mapM fun x ↦ (f x).result := by
  induction xs with
  | nil => rfl
  | cons x xs ih =>
    rw [List.mapM_cons, List.mapM_cons, result_bind]
    cases (f x).result with
    | error e => rfl
    | ok y =>
      simp only [Except.bind, bind]
      change (xs.mapM f >>= fun ys ↦ pure (y :: ys)).result = _
      rw [result_bind, ih]
      rfl

/-- A row of computations that all answer logs what each of them does. -/
theorem log_mapM {f : α → Traced β} {xs : List α} {ys : List β}
    (h : (xs.mapM f).result = .ok ys) : (xs.mapM f).log = xs.flatMap fun x ↦ (f x).log := by
  induction xs generalizing ys with
  | nil => rfl
  | cons x xs ih =>
    rw [List.mapM_cons] at h ⊢
    obtain ⟨y, hy, h⟩ := result_bind_eq_ok.mp h
    obtain ⟨others, hothers, -⟩ := result_bind_eq_ok.mp h
    rw [log_bind, hy, List.flatMap_cons, ← ih hothers]
    simp only [log_bind, hothers, log_pure, List.append_nil]

/-- A computation without records lifts to its own answer. -/
@[simp] theorem result_ofExcept (x : Except Failure α) : (ofExcept x).result = x := rfl

/-- A failure is its own answer. -/
@[simp] theorem result_throw (e : Failure) : (throw e : Traced α).result = .error e := rfl

/-- A record answers nothing of interest. -/
@[simp] theorem result_record (severity : Severity) (text : String) :
    (record severity text).result = .ok () := rfl

end Traced

end Columnar
