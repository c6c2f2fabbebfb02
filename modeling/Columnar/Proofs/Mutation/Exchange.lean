import Columnar.Mutation.Wait
import Columnar.Proofs.Sessions

/-!
# What a mutation sends

A watched client behaves as the client it watches and keeps every exchange beside its state.
`outcome_execute`, `outcome_poll` and `outcome_wait` say what sending a mutation and waiting for it
answer and leave, for any client and any number of rounds; more rounds change nothing unless the
time is up (`outcome_wait_more`). From them: sending makes one command, the mutation's own; waiting
makes that command only where none was accepted before, and asks for the status by queries alone
(`logs_execute`, `logs_wait`).
-/

namespace Columnar

/-! ### Exchanges -/

/-- One exchange with a client: what it was sent and what it answered. -/
inductive Exchange where
  | query (sql : String) (params : Params) (answer : Except Failure (List Row))
  | command (sql : String) (params : Params) (answer : Except Failure Unit)

namespace Exchange

/-- The statement and the parameters of a command. -/
def command? : Exchange → Option (String × Params)
  | query .. => none
  | command sql params _ => some (sql, params)

/-- Whether a command was sent and accepted. -/
def isAccepted : Exchange → Bool
  | command _ _ (.ok ()) => true
  | _ => false

/-- The commands among exchanges, in order. -/
def commands (exchanges : List Exchange) : List (String × Params) := exchanges.filterMap command?

theorem commands_append (before after : List Exchange) :
    commands (before ++ after) = commands before ++ commands after := List.filterMap_append

/-- Where no command is sent, none is accepted. -/
theorem any_isAccepted_of_commands {exchanges : List Exchange} (h : commands exchanges = []) :
    exchanges.any isAccepted = false := by
  rw [List.any_eq_false]
  intro e he
  have hnone : e.command? = none := List.filterMap_eq_nil_iff.mp h e he
  cases e with
  | query sql params answer => exact Bool.false_ne_true
  | command sql params answer => cases hnone

end Exchange

variable {σ τ α : Type}

/-- A client that does as another and keeps its exchanges, the last one at the end. -/
def Client.watched (client : Client σ) : Client (List Exchange × σ) where
  query sql params s :=
    let (answer, st) := client.query sql params s.2
    (answer, s.1 ++ [.query sql params answer], st)
  command sql params s :=
    let (answer, st) := client.command sql params s.2
    (answer, s.1 ++ [.command sql params answer], st)
  now s := client.now s.2
  sleep n s := (s.1, client.sleep n s.2)

namespace Client

variable (client : Client σ) (sql : String) (params : Params) (log : List Exchange) (s : σ)

theorem watched_query : client.watched.query sql params (log, s) =
    ((client.query sql params s).1, log ++ [.query sql params (client.query sql params s).1],
      (client.query sql params s).2) := rfl

theorem watched_command : client.watched.command sql params (log, s) =
    ((client.command sql params s).1, log ++ [.command sql params (client.command sql params s).1],
      (client.command sql params s).2) := rfl

theorem watched_now : client.watched.now (log, s) = client.now s := rfl

theorem watched_sleep (n : Int) :
    client.watched.sleep n (log, s) = (log, client.sleep n s) := rfl

end Client

/-- Beside any log, one computation answers and leaves what the other does without it, and adds
these exchanges. -/
def Session.Logs (x : Session (τ × List Exchange × σ) α) (y : Session (τ × σ) α) (s : τ × σ)
    (more : List Exchange) : Prop :=
  ∀ log, x.outcome (s.1, log, s.2) =
    ((y.outcome s).1, (y.outcome s).2.1, log ++ more, (y.outcome s).2.2)

/-- An answer of one's own at the end takes no exchange. -/
theorem Session.Logs.bind_pure {x : Session (τ × List Exchange × σ) α} {y : Session (τ × σ) α}
    {s : τ × σ} {more : List Exchange} (h : Session.Logs x y s more) {β : Type} (b : β) :
    Session.Logs (x >>= fun _ ↦ pure b) (y >>= fun _ ↦ pure b) s more := by
  intro log
  simp only [outcome_bind_pure, h log]

namespace Mutation

/-! ### What sending and waiting answer and leave -/

/-- The name of the newest mutation in the rows of `latestSql`. -/
def idOfRows : List Row → Value
  | row :: _ => Value.get "mutation_id" row
  | [] => .null

theorem outcome_execute (client : Client σ) (m : Mutation) (s : σ) :
    (execute client).outcome (m, s) = match client.command m.sql m.params s with
      | (.error e, s) => (.error e, m, s)
      | (.ok (), s) => match client.query latestSql [("table", .text m.table)] s with
        | (.error e, s) => (.error e, { m with accepted := true }, s)
        | (.ok rows, s) => (.ok (), { m with accepted := true, id := idOfRows rows }, s) := by
  unfold execute
  simp only [Session.outcome_bind, Session.outcome_onSecond, Session.outcome_logFailure,
    Session.outcome_get, Session.outcome_modify, Client.outcome_run, Client.outcome_rows]
  rcases client.command m.sql m.params s with ⟨e | ⟨⟨⟩⟩, s⟩
  · rfl
  · dsimp only
    rcases client.query latestSql [("table", .text m.table)] s with ⟨e | rows, s⟩ <;> rfl

theorem outcome_poll (client : Client σ) (m : Mutation) (interval limit start : Int) (polls : Nat)
    (s : σ) :
    (poll client m interval limit start (polls + 1)).outcome s =
      match client.query statusSql [("table", .text m.table), ("mid", m.id)] s with
      | (.error e, s) => (.error e, s)
      | (.ok rows, s) => match Verdict.ofRows rows with
        | .error e => (.error e, s)
        | .ok (.failed reason) => (.error (.mutationFailed m.id reason), s)
        | .ok .done => (.ok (), s)
        | .ok .undecided =>
          if limit < client.now s - start then (.error (.waitTimeout m.id limit), s)
          else (poll client m interval limit start polls).outcome (client.sleep interval s) := by
  rw [poll, Session.outcome_bind, Client.outcome_rows]
  rcases client.query statusSql [("table", .text m.table), ("mid", m.id)] s with ⟨e | rows, s⟩
  · rfl
  · simp only [Session.outcome_bind, Session.outcome_liftM, Traced.result_liftM]
    rcases Verdict.ofRows rows with e | ⟨⟩ | reason | ⟨⟩
    · rfl
    · rfl
    · rfl
    · by_cases h : limit < client.now s - start <;> simp [Session.outcome_bind, h]

/-- What waiting for a mutation that was sent answers and leaves. -/
def awaited (client : Client σ) (interval limit : Int) (rounds : Nat) (m : Mutation) (s : σ) :
    Except Failure Unit × Mutation × σ :=
  if m.id.isNull then (.ok (), m, s)
  else
    let o := (poll client m interval limit (client.now s) rounds).outcome s
    (o.1, m, o.2)

theorem outcome_wait (client : Client σ) (interval limit : Int) (rounds : Nat) (m : Mutation)
    (s : σ) : (wait client interval limit rounds).outcome (m, s) =
      match if m.accepted then (.ok (), m, s) else (execute client).outcome (m, s) with
      | (.error e, s) => (.error e, s)
      | (.ok (), m, s) => awaited client interval limit rounds m s := by
  have hawaited (s : Mutation × σ) : awaited client interval limit rounds s.1 s.2 =
      if s.1.id.isNull then (.ok (), s)
      else ((poll client s.1 interval limit (client.now s.2) rounds).onSecond).outcome s := rfl
  unfold wait
  rw [Session.outcome_bind, Session.outcome_get]
  cases h : m.accepted
  · simp only [h, Bool.not_false, if_true, if_false, Bool.false_eq_true]
    rw [Session.outcome_bind]
    rcases (execute client).outcome (m, s) with ⟨e | ⟨⟨⟩⟩, m, s⟩
    · rfl
    · by_cases hn : m.id.isNull <;> simp [hn, hawaited (m, s), Session.outcome_bind]
  · simp only [h, Bool.not_true, if_true, if_false, Bool.false_eq_true]
    by_cases hn : m.id.isNull <;> simp [hn, hawaited (m, s), Session.outcome_bind]

/-- More rounds change nothing unless the time is up. -/
theorem outcome_poll_more {client : Client σ} {m : Mutation} {interval limit start : Int}
    {polls : Nat} {s : σ} (h : ((poll client m interval limit start polls).outcome s).1 ≠
      .error (.waitTimeout m.id limit)) (more : Nat) :
    (poll client m interval limit start (polls + more)).outcome s =
      (poll client m interval limit start polls).outcome s := by
  induction polls generalizing s with
  | zero => exact absurd rfl h
  | succ polls ih =>
    rw [Nat.add_right_comm, outcome_poll, outcome_poll]
    rw [outcome_poll] at h
    generalize client.query statusSql [("table", .text m.table), ("mid", m.id)] s = asked at h ⊢
    rcases asked with ⟨e | rows, s⟩
    · rfl
    · dsimp only at h ⊢
      generalize Verdict.ofRows rows = verdict at h ⊢
      rcases verdict with e | ⟨⟩ | reason | ⟨⟩
      · rfl
      · rfl
      · rfl
      · by_cases late : limit < client.now s - start
        · simp only [if_pos late]
        · simp only [if_neg late] at h ⊢
          exact ih h

/-- A wait that is given more rounds answers and leaves the same unless its time is up. -/
theorem outcome_wait_more {client : Client σ} {interval limit : Int} {rounds : Nat} {m : Mutation}
    {s : σ} (h : ∀ id, ((wait client interval limit rounds).outcome (m, s)).1 ≠
      .error (.waitTimeout id limit)) (more : Nat) :
    (wait client interval limit (rounds + more)).outcome (m, s) =
      (wait client interval limit rounds).outcome (m, s) := by
  simp only [outcome_wait] at h ⊢
  generalize (if m.accepted then (.ok (), m, s) else (execute client).outcome (m, s)) = ready at h ⊢
  rcases ready with ⟨e | ⟨⟨⟩⟩, m, s⟩
  · rfl
  · simp only [awaited] at h ⊢
    by_cases hn : m.id.isNull
    · simp only [if_pos hn]
    · simp only [if_neg hn] at h ⊢
      rw [outcome_poll_more (h m.id)]

/-! ### Watched -/

/-- What carrying out a mutation leaves of it, beside the exchanges it took: the commands are those
owed, the statement stays, and it counts as accepted when a command was. -/
structure Carried (m : Mutation) (owed : List (String × Params)) (m' : Mutation)
    (exchanges : List Exchange) : Prop where
  commands_eq : Exchange.commands exchanges = owed
  sql_eq : m'.sql = m.sql
  params_eq : m'.params = m.params
  accepted_eq : m'.accepted = (m.accepted || exchanges.any Exchange.isAccepted)

namespace Carried

variable {m m' : Mutation} {owed : List (String × Params)} {sent more : List Exchange}

/-- Queries leave a mutation as it is. -/
theorem of_queries (h : Exchange.commands more = []) : Carried m [] m more :=
  ⟨h, rfl, rfl, by rw [Exchange.any_isAccepted_of_commands h, Bool.or_false]⟩

/-- Queries may follow what was sent. -/
theorem append_queries (hsent : Carried m owed m' sent) (h : Exchange.commands more = []) :
    Carried m owed m' (sent ++ more) where
  commands_eq := by rw [Exchange.commands_append, hsent.commands_eq, h, List.append_nil]
  sql_eq := hsent.sql_eq
  params_eq := hsent.params_eq
  accepted_eq := by
    rw [List.any_append, Exchange.any_isAccepted_of_commands h, Bool.or_false, hsent.accepted_eq]

end Carried

/-- Sending a mutation makes one command, its own. -/
theorem logs_execute (client : Client σ) (m : Mutation) (s : σ) :
    ∃ more, Session.Logs (execute client.watched) (execute client) (m, s) more ∧
      Carried m [(m.sql, m.params)] ((execute client).outcome (m, s)).2.1 more := by
  simp only [Session.Logs, outcome_execute, Client.watched_command]
  rcases client.command m.sql m.params s with ⟨e | ⟨⟨⟩⟩, s⟩
  · exact ⟨[_], fun log ↦ rfl, rfl, rfl, rfl, (Bool.or_false _).symm⟩
  · simp only [Client.watched_query]
    rcases client.query latestSql [("table", .text m.table)] s with ⟨e | rows, s⟩
    · exact ⟨[_, _], fun log ↦ by rw [List.append_assoc]; rfl, rfl, rfl, rfl,
        (Bool.or_true _).symm⟩
    · exact ⟨[_, _], fun log ↦ by rw [List.append_assoc]; rfl, rfl, rfl, rfl,
        (Bool.or_true _).symm⟩

/-- Asking for the status makes queries alone. -/
theorem logs_poll (client : Client σ) (m : Mutation) (interval limit start : Int) (polls : Nat)
    (s : σ) :
    ∃ more, Exchange.commands more = [] ∧ ∀ log,
      (poll client.watched m interval limit start polls).outcome (log, s) =
        (((poll client m interval limit start polls).outcome s).1, log ++ more,
          ((poll client m interval limit start polls).outcome s).2) := by
  induction polls generalizing s with
  | zero => exact ⟨[], rfl, fun log ↦ by rw [List.append_nil]; rfl⟩
  | succ polls ih =>
    simp only [outcome_poll, Client.watched_query]
    rcases client.query statusSql [("table", .text m.table), ("mid", m.id)] s with ⟨e | rows, s⟩
    · exact ⟨[_], rfl, fun log ↦ rfl⟩
    · dsimp only
      rcases Verdict.ofRows rows with e | ⟨⟩ | reason | ⟨⟩
      · exact ⟨[_], rfl, fun log ↦ rfl⟩
      · exact ⟨[_], rfl, fun log ↦ rfl⟩
      · exact ⟨[_], rfl, fun log ↦ rfl⟩
      · simp only [Client.watched_now, Client.watched_sleep]
        by_cases late : limit < client.now s - start
        · rw [if_pos late]
          exact ⟨[_], rfl, fun log ↦ if_pos late⟩
        · rw [if_neg late]
          obtain ⟨more, hmore, ho⟩ := ih (client.sleep interval s)
          refine ⟨[.query statusSql [("table", .text m.table), ("mid", m.id)] (.ok rows)] ++ more,
            hmore, fun log ↦ (if_neg late).trans ?_⟩
          rw [ho, List.append_assoc]

private theorem logs_awaited (client : Client σ) (interval limit : Int) (rounds : Nat)
    (m : Mutation) (s : σ) :
    (awaited client interval limit rounds m s).2.1 = m ∧ ∃ more, Exchange.commands more = [] ∧
      ∀ log, awaited client.watched interval limit rounds m (log, s) =
        ((awaited client interval limit rounds m s).1, m, log ++ more,
          (awaited client interval limit rounds m s).2.2) := by
  unfold awaited
  by_cases hn : m.id.isNull
  · simp only [if_pos hn]
    exact ⟨trivial, [], rfl, fun log ↦ by rw [List.append_nil]⟩
  · simp only [if_neg hn, Client.watched_now]
    obtain ⟨more, hmore, ho⟩ :=
      logs_poll client m interval limit (client.now s) rounds s
    exact ⟨trivial, more, hmore, fun log ↦ by rw [ho]⟩

/-- Waiting for a mutation, for however many rounds, makes its command unless one was accepted
before. -/
theorem logs_wait (client : Client σ) (interval limit : Int) (rounds : Nat) (m : Mutation) (s : σ) :
    ∃ more, Session.Logs (wait client.watched interval limit rounds)
        (wait client interval limit rounds) (m, s) more ∧
      Carried m (if m.accepted then [] else [(m.sql, m.params)])
        ((wait client interval limit rounds).outcome (m, s)).2.1 more := by
  simp only [Session.Logs, outcome_wait]
  cases haccepted : m.accepted
  · simp only [if_false, Bool.false_eq_true]
    obtain ⟨sent, hsent, hcarried⟩ := logs_execute client m s
    simp only [hsent _]
    rcases ho : (execute client).outcome (m, s) with ⟨e | ⟨⟨⟩⟩, m', s⟩ <;> rw [ho] at hcarried
    · exact ⟨sent, fun log ↦ rfl, hcarried⟩
    · obtain ⟨hm, more, hmore, hawaited⟩ := logs_awaited client interval limit rounds m' s
      simp only [hawaited, hm, List.append_assoc]
      exact ⟨sent ++ more, fun log ↦ rfl, hcarried.append_queries hmore⟩
  · simp only [if_true]
    obtain ⟨hm, more, hmore, hawaited⟩ := logs_awaited client interval limit rounds m s
    simp only [hawaited, hm]
    exact ⟨more, fun log ↦ rfl, .of_queries hmore⟩

end Mutation

end Columnar
