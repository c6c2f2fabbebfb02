import Columnar.Proofs.Mutation.Exchange

/-!
# What a wait that returns has seen

A statement is sent and waited for, in any order, and the client may fail at any call. Whether it is
accepted, and its name, are read off the exchanges so far (`Standing`): it is accepted once a
command was, and its name is the one a lookup was answered last. `wait_returns` says what a wait
that returns has seen. Where the lookup after the command accepted last was answered, the server
gave no name or has said of that name that it is done. Where that lookup failed, the same holds of
the name known from before; if there is none, the wait returns without an exchange.
-/

namespace Columnar

variable {σ : Type}

/-! ### Lives of a statement -/

/-- A call on a mutation that is a statement already. A wait may make any number of rounds. -/
inductive StatementCall where
  | execute
  | wait (interval limit : Int) (rounds : Nat := Mutation.pollLimit interval limit)

/-- Carries a call out. -/
def StatementCall.run (client : Client σ) : StatementCall → Session (Mutation × σ) Unit
  | execute => Mutation.execute client
  | wait interval limit rounds => Mutation.wait client interval limit rounds

/-- A call with what came of it: the answer and the exchanges with the client. -/
structure StatementStep where
  call : StatementCall
  answer : Except Failure Unit
  exchanges : List Exchange

/-- The steps of a row of calls. -/
def Mutation.history (client : Client σ) : List StatementCall → Mutation → σ → List StatementStep
  | [], _, _ => []
  | call :: calls, m, s =>
    let o := (call.run client.watched).outcome (m, [], s)
    ⟨call, o.1, o.2.2.1⟩ :: history client calls o.2.1 o.2.2.2

/-- The exchanges of steps, in order. -/
def StatementStep.log (steps : List StatementStep) : List Exchange :=
  steps.flatMap exchanges

/-- Being watched changes nothing: a call answers, and leaves the mutation and the client, as it
does with the client itself. -/
theorem StatementCall.outcome_watched (client : Client σ) (call : StatementCall) (m : Mutation)
    (s : σ) :
    let o := (call.run client.watched).outcome (m, [], s)
    (o.1, o.2.1, o.2.2.2) = (call.run client).outcome (m, s) := by
  cases call with
  | execute =>
    obtain ⟨more, hlogs, -⟩ := Mutation.logs_execute client m s
    simp only [run, hlogs []]
  | wait interval limit rounds =>
    obtain ⟨more, hlogs, -⟩ := Mutation.logs_wait client interval limit rounds m s
    simp only [run, hlogs []]

/-! ### What exchanges say -/

namespace Exchange

/-- Whether the client was asked for the newest mutation. -/
def isLookup : Exchange → Bool
  | query sql _ _ => sql == Mutation.latestSql
  | command .. => false

/-- Neither an accepted command nor a lookup. -/
def isQuiet (e : Exchange) : Bool := !e.isAccepted && !e.isLookup

/-- The name that a lookup was answered. -/
def name? : Exchange → Option Value
  | query sql _ (.ok rows) =>
    if sql = Mutation.latestSql then some (Mutation.idOfRows rows) else none
  | _ => none

/-- The name that was answered last, null if none was. -/
def lastName (log : List Exchange) : Value := (log.reverse.findSome? name?).getD .null

theorem isAccepted_eq_false {e : Exchange} (h : e.isQuiet = true) : e.isAccepted = false := by
  simp only [isQuiet, Bool.and_eq_true, Bool.not_eq_true'] at h
  exact h.1

theorem name?_eq_none {e : Exchange} (h : e.isQuiet = true) : e.name? = none := by
  simp only [isQuiet, Bool.and_eq_true, Bool.not_eq_true'] at h
  cases e with
  | query sql params answer =>
    have hsql : sql ≠ Mutation.latestSql := ne_of_beq_false h.2
    cases answer with
    | ok rows => exact if_neg hsql
    | error e => rfl
  | command sql params answer => rfl

theorem lastName_append (log : List Exchange) (e : Exchange) :
    lastName (log ++ [e]) = e.name?.getD (lastName log) := by
  unfold lastName
  rw [List.reverse_append, List.reverse_singleton, List.singleton_append, List.findSome?_cons]
  cases e.name? <;> rfl

variable {more : List Exchange}

/-- Quiet exchanges tell no name. -/
theorem lastName_append_quiet (log : List Exchange) (h : ∀ e ∈ more, e.isQuiet = true) :
    lastName (log ++ more) = lastName log := by
  have hnone : more.reverse.findSome? name? = none := by
    rw [List.findSome?_eq_none_iff]
    intro e he
    exact name?_eq_none (h e (List.mem_reverse.mp he))
  unfold lastName
  rw [List.reverse_append, List.findSome?_append, hnone, Option.none_or]

/-- Among quiet exchanges no command is accepted. -/
theorem any_isAccepted_of_quiet (h : ∀ e ∈ more, e.isQuiet = true) :
    more.any isAccepted = false := by
  rw [List.any_eq_false]
  intro e he
  rw [isAccepted_eq_false (h e he)]
  exact Bool.false_ne_true

end Exchange

namespace Mutation

open Exchange

/-- The command that sends a mutation, with its answer. -/
abbrev sending (m : Mutation) (answer : Except Failure Unit) : Exchange :=
  .command m.sql m.params answer

/-- The lookup of the newest mutation of a table, with its answer. -/
abbrev lookup (table : String) (answer : Except Failure (List Row)) : Exchange :=
  .query latestSql [("table", .text table)] answer

/-- The question how far a mutation of a table is, with its answer. -/
abbrev status (table : String) (id : Value) (answer : Except Failure (List Row)) : Exchange :=
  .query statusSql [("table", .text table), ("mid", id)] answer

theorem isQuiet_status (table : String) (id : Value) (answer : Except Failure (List Row)) :
    (status table id answer).isQuiet = true := by
  have hsql : (statusSql == latestSql) = false := by decide +kernel
  simp only [isQuiet, isAccepted, isLookup, hsql, Bool.not_false, Bool.and_self]

/-- Rows that say a mutation is done: there is none, or the first gives no reason of failure and is
done. -/
def SaysDone (rows : List Row) : Prop :=
  ∀ row ∈ rows.head?, (Value.get "latest_fail_reason" row).isTruthy = false ∧
    (Value.get "is_done" row).same (.int 1) = .ok true

theorem saysDone_of_ofRows {rows : List Row} (h : Verdict.ofRows rows = .ok .done) :
    SaysDone rows := by
  cases rows with
  | nil =>
    intro row hrow
    cases hrow
  | cons row rows =>
    intro row' hrow
    cases hrow
    dsimp only [Verdict.ofRows] at h
    by_cases hreason : (Value.get "latest_fail_reason" row).isTruthy = true
    · rw [if_pos hreason] at h
      cases h
    · refine ⟨Bool.eq_false_iff.mpr hreason, ?_⟩
      rw [if_neg hreason] at h
      rcases hsame : (Value.get "is_done" row).same (.int 1) with e | ⟨⟩ | ⟨⟩
      · rw [hsame] at h
        cases h
      · rw [hsame] at h
        cases h
      · rfl

/-- The server has said that a mutation is done: it gave it no name, or a status of that name says
so. -/
def ToldDone (table : String) (id : Value) (log : List Exchange) : Prop :=
  id.isNull = true ∨ ∃ rows, status table id (.ok rows) ∈ log ∧ SaysDone rows

theorem ToldDone.append {table : String} {id : Value} {more : List Exchange}
    (h : ToldDone table id more) (log : List Exchange) : ToldDone table id (log ++ more) := by
  rcases h with hnull | ⟨rows, hmem, hdone⟩
  · exact .inl hnull
  · exact .inr ⟨rows, List.mem_append_right log hmem, hdone⟩

/-! ### What one call does -/

variable {m m' m₀ : Mutation} {log more : List Exchange} {answer : Except Failure Unit}

/-- All that sending can do: the command is refused, or it is accepted and the lookup fails, or both
are answered. -/
inductive Sent (m : Mutation) : Except Failure Unit → List Exchange → Mutation → Prop
  | refused (e : Failure) : Sent m (.error e) [sending m (.error e)] m
  | unnamed (e : Failure) :
      Sent m (.error e) [sending m (.ok ()), lookup m.table (.error e)] { m with accepted := true }
  | named (rows : List Row) :
      Sent m (.ok ()) [sending m (.ok ()), lookup m.table (.ok rows)]
        { m with accepted := true, id := idOfRows rows }

/-- All that waiting for a mutation that was sent can do: it asks for the status alone, and returns
only when told that the mutation is done. Without a name it returns at once. -/
structure Awaited (m : Mutation) (answer : Except Failure Unit) (more : List Exchange) : Prop where
  quiet : ∀ e ∈ more, e.isQuiet = true
  toldDone : answer = .ok () → ToldDone m.table m.id more
  idle : m.id.isNull = true → answer = .ok () ∧ more = []

theorem sent_execute (client : Client σ) (m : Mutation) (log : List Exchange) (s : σ) :
    let o := (execute client.watched).outcome (m, log, s)
    ∃ more, o.2.2.1 = log ++ more ∧ Sent m o.1 more o.2.1 := by
  simp only [outcome_execute, Client.watched_command]
  rcases client.command m.sql m.params s with ⟨e | ⟨⟨⟩⟩, s⟩
  · exact ⟨_, rfl, .refused e⟩
  · simp only [Client.watched_query]
    rcases client.query latestSql [("table", .text m.table)] s with ⟨e | rows, s⟩
    · exact ⟨_, List.append_assoc .., .unnamed e⟩
    · exact ⟨_, List.append_assoc .., .named rows⟩

private theorem polled_poll (client : Client σ) (m : Mutation) (interval limit start : Int)
    (polls : Nat) (log : List Exchange) (s : σ) :
    let o := (poll client.watched m interval limit start polls).outcome (log, s)
    ∃ more, o.2.1 = log ++ more ∧ (∀ e ∈ more, e.isQuiet = true) ∧
      (o.1 = .ok () → ∃ rows, status m.table m.id (.ok rows) ∈ more ∧ SaysDone rows) := by
  induction polls generalizing log s with
  | zero =>
    refine ⟨[], (List.append_nil log).symm, fun e he ↦ (by cases he), fun h ↦ ?_⟩
    cases h
  | succ polls ih =>
    simp only [outcome_poll, Client.watched_query]
    have hquiet (answer : Except Failure (List Row)) :
        ∀ e ∈ [status m.table m.id answer], e.isQuiet = true := by
      intro e he
      rw [List.mem_singleton.mp he]
      exact isQuiet_status m.table m.id answer
    rcases client.query statusSql [("table", .text m.table), ("mid", m.id)] s with ⟨e | rows, s⟩
    · exact ⟨_, rfl, hquiet _, fun h ↦ (by cases h)⟩
    · dsimp only
      rcases hrows : Verdict.ofRows rows with e | ⟨⟩ | reason | ⟨⟩
      · exact ⟨_, rfl, hquiet _, fun h ↦ (by cases h)⟩
      · have hsays := saysDone_of_ofRows hrows
        exact ⟨_, rfl, hquiet _, fun _ ↦ ⟨rows, List.mem_singleton_self _, hsays⟩⟩
      · exact ⟨_, rfl, hquiet _, fun h ↦ (by cases h)⟩
      · dsimp only
        split
        · exact ⟨_, rfl, hquiet _, fun h ↦ (by cases h)⟩
        · rw [Client.watched_sleep]
          obtain ⟨more, hmore, hstill, hdone⟩ :=
            ih (log ++ [status m.table m.id (.ok rows)]) (client.sleep interval s)
          refine ⟨status m.table m.id (.ok rows) :: more, ?_, ?_, fun h ↦ ?_⟩
          · rw [hmore, List.append_assoc, List.singleton_append]
          · intro e he
            rcases List.mem_cons.mp he with rfl | he
            · exact isQuiet_status m.table m.id _
            · exact hstill e he
          · obtain ⟨rows', hmem, hsays⟩ := hdone h
            exact ⟨rows', List.mem_cons_of_mem _ hmem, hsays⟩

theorem awaited_awaited (client : Client σ) (interval limit : Int) (rounds : Nat) (m : Mutation)
    (log : List Exchange) (s : σ) :
    let o := awaited client.watched interval limit rounds m (log, s)
    o.2.1 = m ∧ ∃ more, o.2.2.1 = log ++ more ∧ Awaited m o.1 more := by
  unfold awaited
  by_cases hnull : m.id.isNull
  · simp only [if_pos hnull]
    refine ⟨trivial, [], (List.append_nil log).symm, ?_⟩
    exact ⟨fun e he ↦ (by cases he), fun _ ↦ .inl hnull, fun _ ↦ ⟨rfl, rfl⟩⟩
  · simp only [if_neg hnull]
    obtain ⟨more, hmore, hquiet, hdone⟩ := polled_poll client m interval limit
      (client.watched.now (log, s)) rounds log s
    exact ⟨trivial, more, hmore, hquiet, fun h ↦ .inr (hdone h), fun h ↦ absurd h hnull⟩

/-- What is done before the status is asked for: nothing for a mutation that was accepted, and
otherwise it is sent. -/
def Readied (m : Mutation) (more : List Exchange) (m' : Mutation) : Prop :=
  if m.accepted then more = [] ∧ m' = m else Sent m (.ok ()) more m'

end Mutation

/-- All that a call can do: send the mutation, or wait for it, where the sending before may fail. -/
inductive StatementCall.Effect (m : Mutation) : StatementCall → Except Failure Unit →
    List Exchange → Mutation → Prop
  | executed {answer : Except Failure Unit} {more : List Exchange} {m' : Mutation}
      (h : m.Sent answer more m') : Effect m .execute answer more m'
  | unsent (interval limit : Int) (rounds : Nat) {e : Failure} {more : List Exchange}
      {m' : Mutation} (haccepted : m.accepted = false) (h : m.Sent (.error e) more m') :
      Effect m (.wait interval limit rounds) (.error e) more m'
  | waited (interval limit : Int) (rounds : Nat) {answer : Except Failure Unit}
      {sent more : List Exchange} {m' : Mutation} (hsent : m.Readied sent m')
      (h : m'.Awaited answer more) :
      Effect m (.wait interval limit rounds) answer (sent ++ more) m'

theorem StatementCall.effect_run (client : Client σ) (call : StatementCall) (m : Mutation) (s : σ) :
    let o := (call.run client.watched).outcome (m, [], s)
    Effect m call o.1 o.2.2.1 o.2.1 := by
  cases call with
  | execute =>
    obtain ⟨more, hmore, hsent⟩ := Mutation.sent_execute client m [] s
    simp only [run, hmore]
    exact .executed hsent
  | wait interval limit rounds =>
    simp only [run, Mutation.outcome_wait]
    cases haccepted : m.accepted
    · obtain ⟨sent, hlog, hsent⟩ := Mutation.sent_execute client m [] s
      simp only [Bool.false_eq_true, if_false]
      rcases ho : (Mutation.execute client.watched).outcome (m, [], s) with ⟨e | ⟨⟨⟩⟩, m', log, s'⟩
      · rw [ho] at hlog hsent
        obtain rfl : log = sent := hlog
        exact .unsent interval limit rounds haccepted hsent
      · rw [ho] at hlog hsent
        obtain rfl : log = sent := hlog
        obtain ⟨hm, more, hmore, hawaited⟩ :=
          Mutation.awaited_awaited client interval limit rounds m' log s'
        simp only [hm, hmore]
        refine .waited interval limit rounds ?_ hawaited
        rw [Mutation.Readied, haccepted]
        exact hsent
    · simp only [if_true]
      obtain ⟨hm, more, hmore, hawaited⟩ :=
        Mutation.awaited_awaited client interval limit rounds m [] s
      simp only [hm, hmore]
      refine .waited interval limit rounds ?_ hawaited
      rw [Mutation.Readied, haccepted]
      exact ⟨rfl, rfl⟩

/-! ### Whole lives -/

namespace Mutation

open Exchange

variable {m m' m₀ : Mutation} {log more earlier later : List Exchange}
  {answer : Except Failure Unit} {named : Except Failure (List Row)}

/-- The command accepted last, what came before it, the answer to the lookup that followed it, and
what came after that. -/
structure Since (m₀ : Mutation) (log earlier : List Exchange)
    (named : Except Failure (List Row)) (later : List Exchange) : Prop where
  log_eq : log = earlier ++ sending m₀ (.ok ()) :: lookup m₀.table named :: later
  quiet : ∀ e ∈ later, e.isQuiet = true

/-- The name known after the lookup: the one answered, and where it failed the one from before. -/
def knownName (earlier : List Exchange) : Except Failure (List Row) → Value
  | .ok rows => idOfRows rows
  | .error _ => lastName earlier

theorem lastName_append_lookup (log : List Exchange) (table : String)
    (named : Except Failure (List Row)) :
    lastName (log ++ [lookup table named]) = knownName log named := by
  rw [lastName_append]
  cases named with
  | ok rows => rw [name?, if_pos rfl, Option.getD_some, knownName]
  | error e => rfl

theorem lastName_append_sending (log : List Exchange) (m : Mutation)
    (answer : Except Failure Unit) : lastName (log ++ [sending m answer]) = lastName log :=
  lastName_append ..

/-- The mutation is as its exchanges say: accepted when a command was, under the name told last. -/
structure Standing (m₀ : Mutation) (log : List Exchange) (m : Mutation) : Prop where
  mutation_eq : m = { m₀ with accepted := log.any isAccepted, id := lastName log }
  since : m.accepted = true → ∃ earlier named later, Since m₀ log earlier named later

namespace Since

theorem append (h : Since m₀ log earlier named later) (hmore : ∀ e ∈ more, e.isQuiet = true) :
    Since m₀ (log ++ more) earlier named (later ++ more) where
  log_eq := by rw [h.log_eq, List.append_assoc]; rfl
  quiet := by
    intro e he
    rcases List.mem_append.mp he with he | he
    · exact h.quiet e he
    · exact hmore e he

/-- The name told last is that known after the lookup. -/
theorem lastName_eq (h : Since m₀ log earlier named later) :
    lastName log = knownName earlier named := by
  have hlog : log = (earlier ++ [sending m₀ (.ok ())] ++ [lookup m₀.table named]) ++ later := by
    rw [h.log_eq, List.append_assoc, List.append_assoc]
    rfl
  rw [hlog, lastName_append_quiet _ h.quiet, lastName_append_lookup]
  cases named with
  | ok rows => rfl
  | error e => exact lastName_append_sending ..

end Since

namespace Standing

theorem nil (sql : String) (params : Params) (table : String) :
    Standing { sql, params, table } [] { sql, params, table } where
  mutation_eq := rfl
  since h := by cases h

/-- Quiet exchanges leave the mutation as it is. -/
theorem append_quiet (h : Standing m₀ log m) (hmore : ∀ e ∈ more, e.isQuiet = true) :
    Standing m₀ (log ++ more) m where
  mutation_eq := by
    rw [List.any_append, any_isAccepted_of_quiet hmore, Bool.or_false,
      lastName_append_quiet log hmore]
    exact h.mutation_eq
  since haccepted := by
    obtain ⟨earlier, named, later, hsince⟩ := h.since haccepted
    exact ⟨earlier, named, later ++ more, hsince.append hmore⟩

/-- After an accepted command and its lookup the mutation is accepted, under the name known then. -/
private theorem append_accepted (h : Standing m₀ log m) (named : Except Failure (List Row)) :
    Standing m₀ (log ++ [sending m (.ok ()), lookup m.table named])
      { m with accepted := true, id := knownName log named } := by
  obtain rfl := h.mutation_eq
  refine ⟨?_, fun _ ↦ ⟨log, named, [], rfl, fun e he ↦ (by cases he)⟩⟩
  have hany : (log ++ [sending m₀ (.ok ()), lookup m₀.table named]).any isAccepted = true := by
    rw [List.any_append]
    exact Bool.or_true _
  have hname : lastName (log ++ [sending m₀ (.ok ()), lookup m₀.table named]) =
      knownName log named := by
    have hsince : Since m₀ (log ++ [sending m₀ (.ok ()), lookup m₀.table named]) log named [] :=
      ⟨rfl, fun e he ↦ (by cases he)⟩
    exact hsince.lastName_eq
  rw [hany, hname]

theorem sent (h : Standing m₀ log m) (hsent : Sent m answer more m') :
    Standing m₀ (log ++ more) m' := by
  cases hsent with
  | refused e =>
    apply h.append_quiet
    intro e' he
    rw [List.mem_singleton.mp he]
    rfl
  | unnamed e =>
    have hid : m.id = lastName log := by rw [h.mutation_eq]
    have hnext := h.append_accepted (.error e)
    rw [knownName, ← hid] at hnext
    exact hnext
  | named rows => exact h.append_accepted (.ok rows)

/-- Before the status is asked for the mutation is accepted. -/
theorem readied (h : Standing m₀ log m) (hm : Readied m more m') :
    Standing m₀ (log ++ more) m' ∧ m'.accepted = true := by
  unfold Readied at hm
  by_cases haccepted : m.accepted = true
  · rw [if_pos haccepted] at hm
    obtain ⟨rfl, rfl⟩ := hm
    rw [List.append_nil]
    exact ⟨h, haccepted⟩
  · rw [if_neg haccepted] at hm
    refine ⟨h.sent hm, ?_⟩
    cases hm
    rfl

/-- A call keeps a mutation and its exchanges together. -/
theorem step {call : StatementCall} (h : Standing m₀ log m) (he : call.Effect m answer more m') :
    Standing m₀ (log ++ more) m' := by
  cases he with
  | executed hsent => exact h.sent hsent
  | unsent interval limit rounds haccepted hsent => exact h.sent hsent
  | waited interval limit rounds hsent hawaited =>
    rw [← List.append_assoc]
    exact (h.readied hsent).1.append_quiet hawaited.quiet

/-- A wait that returns was told that the mutation is done, under the name known since its command
was accepted last. -/
theorem wait_seen {interval limit : Int} {rounds : Nat} (h : Standing m₀ log m)
    (he : (StatementCall.wait interval limit rounds).Effect m (.ok ()) more m') :
    ∃ earlier named later, Since m₀ (log ++ more) earlier named later ∧
      ToldDone m₀.table (knownName earlier named) later := by
  cases he with
  | waited _ _ _ hsent hawaited =>
    obtain ⟨hstanding, haccepted⟩ := h.readied hsent
    obtain ⟨earlier, named, later, hsince⟩ := hstanding.since haccepted
    have htold := hawaited.toldDone rfl
    rw [hstanding.mutation_eq, hsince.lastName_eq] at htold
    rw [← List.append_assoc]
    exact ⟨earlier, named, _, hsince.append hawaited.quiet, htold.append later⟩

/-- A wait for a mutation that was accepted and has no name returns without an exchange. -/
theorem wait_idle {interval limit : Int} {rounds : Nat} (h : Standing m₀ log m)
    (he : (StatementCall.wait interval limit rounds).Effect m answer more m')
    (haccepted : log.any isAccepted = true) (hnull : (lastName log).isNull = true) :
    answer = .ok () ∧ more = [] := by
  obtain rfl := h.mutation_eq
  cases he with
  | unsent _ _ _ hnone hsent =>
    rw [haccepted] at hnone
    cases hnone
  | waited _ _ _ hsent hawaited =>
    rw [Readied, if_pos haccepted] at hsent
    obtain ⟨rfl, rfl⟩ := hsent
    exact hawaited.idle hnull

end Standing

/-- Every step of a history finds the mutation as the exchanges before say, and has the effect of
its call. -/
theorem standing_of_history {client : Client σ} {calls : List StatementCall} {s : σ}
    {before after : List StatementStep} {step : StatementStep} (h : Standing m₀ log m)
    (hsteps : m.history client calls s = before ++ step :: after) :
    ∃ m₁ m₂, Standing m₀ (log ++ StatementStep.log before) m₁ ∧
      step.call.Effect m₁ step.answer step.exchanges m₂ := by
  induction calls generalizing m s log before with
  | nil => exact absurd hsteps.symm (by simp [history])
  | cons call calls ih =>
    have he := call.effect_run client m s
    rcases List.append_eq_cons_iff.mp hsteps.symm with ⟨rfl, hrest⟩ | ⟨before', rfl, hrest⟩
    · obtain ⟨rfl, -⟩ := List.cons.inj hrest
      refine ⟨m, _, ?_, he⟩
      rw [StatementStep.log, List.flatMap_nil, List.append_nil]
      exact h
    · rw [StatementStep.log, List.flatMap_cons, ← List.append_assoc]
      exact ih (h.step he) hrest

/-- The steps of a history are those of the calls, in order. -/
theorem map_call_history (client : Client σ) (calls : List StatementCall) (m : Mutation) (s : σ) :
    (m.history client calls s).map StatementStep.call = calls := by
  induction calls generalizing m s with
  | nil => rfl
  | cons call calls ih => exact congrArg (call :: ·) (ih _ _)

/-- Over any row of sendings and waits, whatever the client answers and wherever it fails, and
however many rounds a wait may make: a wait that returns comes after an accepted command and its
lookup. If that lookup was answered, the server gave no name or has said of that name that it is
done. If it failed, the same holds of the name answered before it. A wait for a mutation that was
accepted and has no name asks nothing. -/
theorem wait_returns (sql : String) (params : Params) (table : String) (client : Client σ)
    (calls : List StatementCall) (s : σ) :
    let m : Mutation := { sql, params, table }
    let h := m.history client calls s
    h.map StatementStep.call = calls ∧
    ∀ before step after interval limit rounds, h = before ++ step :: after →
      step.call = .wait interval limit rounds →
      (step.answer = .ok () → ∃ earlier named later,
        m.Since (StatementStep.log (before ++ [step])) earlier named later ∧
        (∀ rows, named = .ok rows → ToldDone table (idOfRows rows) later) ∧
        ∀ e, named = .error e → ToldDone table (lastName earlier) later) ∧
      ((StatementStep.log before).any isAccepted = true →
        (lastName (StatementStep.log before)).isNull = true →
        step.answer = .ok () ∧ step.exchanges = []) := by
  refine ⟨map_call_history client calls _ s, ?_⟩
  rintro before step after interval limit rounds hsteps hcall
  obtain ⟨m, m', hstanding, he⟩ := standing_of_history (.nil sql params table) hsteps
  rw [hcall] at he
  constructor
  · intro hanswer
    rw [hanswer] at he
    obtain ⟨earlier, named, later, hsince, htold⟩ := hstanding.wait_seen he
    refine ⟨earlier, named, later, ?_, ?_, ?_⟩
    · rw [StatementStep.log, List.flatMap_append, List.flatMap_singleton]
      exact hsince
    · rintro rows rfl
      exact htold
    · rintro e rfl
      exact htold
  · exact hstanding.wait_idle he

private def removal : Mutation :=
  { sql := "ALTER TABLE `visits` DELETE WHERE `id` = 7", params := [], table := "visits" }

/-- A client that takes every command, answers a lookup, which has one parameter, as given, and any
other query with a status that is done. -/
private def answering (named : Except Failure (List Row)) : Client Unit where
  query _ params s := (if params.length = 1 then named else .ok [[(.text "is_done", .int 1)]], s)
  command _ _ s := (.ok (), s)
  now _ := 0
  sleep _ s := s

private def lost : Failure := .client .connection "connection lost"

private def sentAndAwaited (named : Except Failure (List Row)) : List StatementStep :=
  removal.history (answering named) [.execute, .wait 500 60000] ()

/-- Where the lookup is answered with a name, the wait after it returns once told that the mutation
is done; where the lookup fails, it returns without an exchange. -/
theorem wait_returns_sentAndAwaited :
    (∃ sent waited, sentAndAwaited (.ok [[(.text "mutation_id", .text "m1")]]) = [sent, waited] ∧
      waited.answer = .ok () ∧ ∃ earlier named later,
        removal.Since (StatementStep.log [sent, waited]) earlier named later ∧
        (∀ rows, named = .ok rows → ToldDone "visits" (idOfRows rows) later) ∧
        ∀ e, named = .error e → ToldDone "visits" (lastName earlier) later) ∧
    ∃ sent waited, sentAndAwaited (.error lost) = [sent, waited] ∧
      (StatementStep.log [sent]).any isAccepted = true ∧
      (lastName (StatementStep.log [sent])).isNull = true ∧ waited.exchanges = [] := by
  constructor
  · obtain ⟨-, hsteps⟩ := wait_returns removal.sql removal.params removal.table
      (answering (.ok [[(.text "mutation_id", .text "m1")]])) [.execute, .wait 500 60000] ()
    exact ⟨_, _, rfl, rfl, (hsteps [_] _ [] 500 60000 _ rfl rfl).1 rfl⟩
  · obtain ⟨-, hsteps⟩ := wait_returns removal.sql removal.params removal.table
      (answering (.error lost)) [.execute, .wait 500 60000] ()
    exact ⟨_, _, rfl, rfl, rfl, ((hsteps [_] _ [] 500 60000 _ rfl rfl).2 rfl rfl).2⟩

/-- After the command accepted last, some lookup gave no name or some status said that a mutation is
done. -/
def SeenDone (table : String) (log : List Exchange) : Prop :=
  ∀ earlier command later, log = earlier ++ command :: later → command.isAccepted = true →
    (∀ e ∈ later, e.isAccepted = false) →
    ∃ rows, (lookup table (.ok rows) ∈ later ∧ (idOfRows rows).isNull = true) ∨
      ∃ id, status table id (.ok rows) ∈ later ∧ SaysDone rows

/-- A wait may return though nothing said that the mutation is done: its command was accepted and
the lookup after it failed. -/
theorem not_seenDone_lookupFailed : ∃ sent waited, sentAndAwaited (.error lost) = [sent, waited] ∧
    waited.call = .wait 500 60000 ∧ waited.answer = .ok () ∧
    ¬ SeenDone "visits" (StatementStep.log [sent, waited]) := by
  refine ⟨_, _, rfl, rfl, rfl, fun hseen ↦ ?_⟩
  have hlog : ∀ e ∈ [lookup "visits" (.error lost)], e.isAccepted = false := by
    intro e he
    rw [List.mem_singleton.mp he]
    rfl
  obtain ⟨rows, ⟨hmem, -⟩ | ⟨id, hmem, -⟩⟩ := hseen [] _ [_] rfl rfl hlog
  · cases List.mem_singleton.mp hmem
  · cases List.mem_singleton.mp hmem

end Mutation

end Columnar
