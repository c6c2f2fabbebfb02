import Columnar.Client.Script
import Columnar.Proofs.Mutation.Exchange
import Columnar.Proofs.Succeeding

/-!
# Which commands are sent over a whole life of a mutation

A mutation is described, described anew, sent and waited for, in any order, and the server takes or
refuses each command. The history of such a life says what was described last and whether a command
of it was accepted since (`MutationHistory.described`, `MutationHistory.accepted`). `dispatch` says
that the client gets the commands that history owes and no others: the statement of the last
description on sending, and on waiting only where none of its commands was accepted.
-/

namespace Columnar

/-! ### Calls -/

/-- A call on a mutation that is being described. A wait may make any number of rounds. -/
inductive MutationCall where
  | where_ (condition : Operand)
  | set (assignments : List (String × Operand))
  | toSql
  | execute
  | wait (interval limit : Int) (rounds : Nat := Mutation.pollLimit interval limit)

/-- A call with what came of it: the answer, which is a statement if that was asked for, the
exchanges with the client, and the draft before and after. -/
structure MutationStep where
  call : MutationCall
  before : MutationDraft
  answer : Except Failure (Option (String × Params))
  exchanges : List Exchange
  after : MutationDraft

/-- The commands sent during a call. -/
def MutationStep.commands (step : MutationStep) : List (String × Params) :=
  Exchange.commands step.exchanges

variable {σ : Type}

namespace MutationCall

/-- Carries a call out. -/
def run (client : Client σ) : MutationCall → Session (MutationDraft × σ) (Option (String × Params))
  | where_ o => do
    modify fun s ↦ (s.1.where_ o, s.2)
    return none
  | set assignments => do
    let d ← liftM (n := Traced) ((← get).1.set assignments)
    modify fun s ↦ (d, s.2)
    return none
  | toSql => do
    let statement ← liftM (n := Traced) (← get).1.toSql
    return some statement
  | execute => do
    MutationDraft.execute client
    return none
  | wait interval limit rounds => do
    MutationDraft.wait client interval limit rounds
    return none

/-- A call with what comes of it from a draft and a state of the client, and the state left. -/
def step (client : Client σ) (call : MutationCall) (d : MutationDraft) (s : σ) :
    MutationStep × σ :=
  let o := (call.run client.watched).outcome (d, [], s)
  ({ call, before := d, answer := o.1, exchanges := o.2.2.1, after := o.2.1 }, o.2.2.2)

end MutationCall

/-- The steps of a row of calls. -/
def MutationDraft.history (client : Client σ) : List MutationCall → MutationDraft → σ →
    List MutationStep
  | [], _, _ => []
  | call :: calls, d, s =>
    let o := call.step client d s
    o.1 :: history client calls o.1.after o.2

/-! ### What one call does -/

/-- All that a call can do to a draft: describe it, refuse a description or a statement that cannot
be made, tell the statement, or carry the mutation out. -/
inductive MutationCall.Effect (d : MutationDraft) : MutationCall →
    Except Failure (Option (String × Params)) → List Exchange → MutationDraft → Prop
  | condition (o : Operand) : Effect d (.where_ o) (.ok none) [] (d.where_ o)
  | assigned {assignments : List (String × Operand)} {d' : MutationDraft}
      (h : d.set assignments = .ok d') : Effect d (.set assignments) (.ok none) [] d'
  | unassigned {assignments : List (String × Operand)} {e : Failure}
      (h : d.set assignments = .error e) : Effect d (.set assignments) (.error e) [] d
  | told : Effect d .toSql (d.toSql.map some) [] d
  | unsent {call : MutationCall} {e : Failure}
      (hcall : call = .execute ∨ ∃ interval limit rounds, call = .wait interval limit rounds)
      (h : d.mutation = .error e) : Effect d call (.error e) [] d
  | executed {m m' : Mutation} {answer : Except Failure (Option (String × Params))}
      {exchanges : List Exchange} (h : d.mutation = .ok m)
      (hcarried : m.Carried [(m.sql, m.params)] m' exchanges) :
      Effect d .execute answer exchanges { d with statement := some m' }
  | waited {m m' : Mutation} {answer : Except Failure (Option (String × Params))}
      {exchanges : List Exchange} (interval limit : Int) (rounds : Nat) (h : d.mutation = .ok m)
      (hcarried : m.Carried (if m.accepted then [] else [(m.sql, m.params)]) m' exchanges) :
      Effect d (.wait interval limit rounds) answer exchanges { d with statement := some m' }

/-- Assignments that are refused leave the draft, and the statement made of it, as they were. -/
theorem MutationCall.Effect.after_eq_of_refused {d d' : MutationDraft}
    {assignments : List (String × Operand)} {e : Failure} {exchanges : List Exchange}
    (h : Effect d (.set assignments) (.error e) exchanges d') : d' = d := by
  cases h <;> rfl

/-- Asking for the statement answers it. -/
theorem MutationCall.Effect.answer_eq_of_toSql {d d' : MutationDraft}
    {answer : Except Failure (Option (String × Params))} {exchanges : List Exchange}
    (h : Effect d .toSql answer exchanges d') : answer = d.toSql.map some := by
  cases h with
  | told => rfl
  | unsent hcall => rcases hcall with hcall | ⟨_, _, _, hcall⟩ <;> cases hcall

namespace MutationDraft

variable {α : Type} {x : Session (Mutation × List Exchange × σ) α} {y : Session (Mutation × σ) α}
  {d : MutationDraft} {s : σ}

theorem outcome_onMutation (y : Session (Mutation × σ) α) (d : MutationDraft) (s : σ) :
    (onMutation y).outcome (d, s) = match d.mutation with
      | .error e => (.error e, d, s)
      | .ok m =>
        ((y.outcome (m, s)).1, { d with statement := some (y.outcome (m, s)).2.1 },
          (y.outcome (m, s)).2.2) := by
  unfold onMutation Session.outcome
  dsimp only
  rcases d.mutation with e | m <;> rfl

/-- Where no statement can be made nothing is sent. -/
theorem logs_onMutation_error {e : Failure} (h : d.mutation = .error e) :
    Session.Logs (onMutation x) (onMutation y) (d, s) [] := by
  intro log
  simp only [outcome_onMutation, h, List.append_nil]

/-- What is done with the mutation described is what is sent for the draft. -/
theorem logs_onMutation {m : Mutation} {more : List Exchange} (h : d.mutation = .ok m)
    (hlogs : Session.Logs x y (m, s) more) :
    Session.Logs (onMutation x) (onMutation y) (d, s) more := by
  intro log
  simp only [outcome_onMutation, h, hlogs log]

/-- Assignments that are taken replace those before, and the statement made before. -/
theorem set_eq_ok {assignments : List (String × Operand)} {d' : MutationDraft}
    (h : d.set assignments = .ok d') :
    d' = { d with assignments := Keyed.ofList assignments, statement := none } := by
  unfold set at h
  split at h
  · cases h
  · dsimp only at h
    split at h
    · cases h
    · cases h
      rfl

end MutationDraft

namespace MutationCall

theorem outcome_run_set (client : Client σ) (assignments : List (String × Operand))
    (d : MutationDraft) (s : σ) :
    ((set assignments).run client).outcome (d, s) = match d.set assignments with
      | .error e => (.error e, d, s)
      | .ok d' => (.ok none, d', s) := by
  simp only [run, Session.outcome_bind, Session.outcome_get, Session.outcome_liftM,
    Traced.result_liftM]
  rcases d.set assignments with e | d' <;> rfl

theorem outcome_run_toSql (client : Client σ) (d : MutationDraft) (s : σ) :
    (toSql.run client).outcome (d, s) = (d.toSql.map some, d, s) := by
  simp only [run, Session.outcome_bind, Session.outcome_get, Session.outcome_liftM,
    Traced.result_liftM]
  rcases d.toSql with e | statement <;> rfl

/-- A call that carries the mutation out does as with the client: it fails where no statement can be
made, and the draft keeps what is left of the mutation where one can. -/
private theorem logs_carried {call : MutationCall} {d : MutationDraft} {s : σ}
    {x : Session (Mutation × List Exchange × σ) Unit} {y : Session (Mutation × σ) Unit}
    {owed : Mutation → List (String × Params)}
    (hlogs : ∀ m, ∃ more, Session.Logs x y (m, s) more ∧
      m.Carried (owed m) (y.outcome (m, s)).2.1 more)
    (hunsent : ∀ {e}, d.mutation = .error e → Effect d call (.error e) [] d)
    (hsent : ∀ {m m' answer more}, d.mutation = .ok m → m.Carried (owed m) m' more →
      Effect d call answer more { d with statement := some m' }) :
    let carried := MutationDraft.onMutation y >>= fun _ ↦ pure none
    ∃ more, Session.Logs (MutationDraft.onMutation x >>= fun _ ↦ pure none) carried (d, s) more ∧
      Effect d call (carried.outcome (d, s)).1 more (carried.outcome (d, s)).2.1 := by
  simp only [Session.outcome_bind_pure, MutationDraft.outcome_onMutation]
  rcases hm : d.mutation with e | m
  · exact ⟨[], (MutationDraft.logs_onMutation_error hm).bind_pure none, hunsent hm⟩
  · obtain ⟨more, hmore, hcarried⟩ := hlogs m
    exact ⟨more, (MutationDraft.logs_onMutation hm hmore).bind_pure none, hsent hm hcarried⟩

/-- A call with a watched client does as with the client, and its effect is one of those above. -/
theorem logs_run (client : Client σ) (call : MutationCall) (d : MutationDraft) (s : σ) :
    ∃ more, Session.Logs (call.run client.watched) (call.run client) (d, s) more ∧
      Effect d call ((call.run client).outcome (d, s)).1 more
        ((call.run client).outcome (d, s)).2.1 := by
  cases call with
  | where_ o => exact ⟨[], fun log ↦ by rw [List.append_nil]; rfl, .condition o⟩
  | set assignments =>
    refine ⟨[], fun log ↦ ?_, ?_⟩
    · rw [outcome_run_set, outcome_run_set, List.append_nil]
      rcases d.set assignments with e | d' <;> rfl
    · rw [outcome_run_set]
      rcases h : d.set assignments with e | d'
      · exact .unassigned h
      · exact .assigned h
  | toSql =>
    refine ⟨[], fun log ↦ ?_, ?_⟩
    · rw [outcome_run_toSql, outcome_run_toSql, List.append_nil]
    · rw [outcome_run_toSql]
      exact .told
  | execute =>
    exact logs_carried (Mutation.logs_execute client · s) (.unsent (.inl rfl))
      fun hm hcarried ↦ .executed hm hcarried
  | wait interval limit rounds =>
    exact logs_carried (Mutation.logs_wait client interval limit rounds · s)
      (.unsent (.inr ⟨interval, limit, rounds, rfl⟩))
      fun hm hcarried ↦ .waited interval limit rounds hm hcarried

end MutationCall

/-- What comes of a call is one of the effects above. -/
theorem MutationCall.effect_step (client : Client σ) (call : MutationCall) (d : MutationDraft)
    (s : σ) :
    Effect d call (call.step client d s).1.answer (call.step client d s).1.exchanges
      (call.step client d s).1.after := by
  obtain ⟨more, hlogs, he⟩ := call.logs_run client d s
  simp only [step, hlogs [], List.nil_append]
  exact he

/-- Being watched changes nothing: a call answers, and leaves the draft and the client, as it does
with the client itself. -/
theorem MutationCall.step_eq_run (client : Client σ) (call : MutationCall) (d : MutationDraft)
    (s : σ) :
    ((call.step client d s).1.answer, (call.step client d s).1.after, (call.step client d s).2) =
      (call.run client).outcome (d, s) := by
  obtain ⟨more, hlogs, -⟩ := call.logs_run client d s
  simp only [step, hlogs []]

/-! ### What a history says -/

namespace MutationStep

/-- The condition that a step describes. -/
def condition? (step : MutationStep) : Option Operand :=
  match step.call with
  | .where_ o => some o
  | _ => none

/-- The assignments that a step describes, if they were taken. -/
def assignments? (step : MutationStep) : Option (List (String × Operand)) :=
  match step.call, step.answer with
  | .set assignments, .ok _ => some (Keyed.ofList assignments)
  | _, _ => none

/-- Whether a step describes the mutation anew. -/
def describes (step : MutationStep) : Bool :=
  step.condition?.isSome || step.assignments?.isSome

/-- Whether a command was accepted in a step. -/
def isAccepted (step : MutationStep) : Bool := step.exchanges.any Exchange.isAccepted

end MutationStep

/-- What happened to a mutation so far, the last step at the end. -/
abbrev MutationHistory := List MutationStep

namespace MutationHistory

variable {kind : MutationKind} {table : Table} {h : MutationHistory}

/-- What the last step says that says something. -/
def latest {α : Type} (f : MutationStep → Option α) (h : MutationHistory) : Option α :=
  h.reverse.findSome? f

theorem latest_append {α : Type} (f : MutationStep → Option α) (h : MutationHistory)
    (step : MutationStep) : latest f (h ++ [step]) = (f step).or (latest f h) := by
  unfold latest
  rw [List.reverse_append, List.reverse_singleton, List.singleton_append, List.findSome?_cons]
  cases f step <;> rfl

/-- The condition given last, none if that was null. -/
def condition (h : MutationHistory) : Option Operand :=
  (latest MutationStep.condition? h).filter fun o ↦ !o.isNull

/-- The assignments taken last. -/
def assignments (h : MutationHistory) : List (String × Operand) :=
  (latest MutationStep.assignments? h).getD []

/-- The mutation as described last. -/
def described (kind : MutationKind) (table : Table) (h : MutationHistory) : MutationDraft :=
  { kind, table, condition := condition h, assignments := assignments h }

/-- Whether a command was accepted since the mutation was described. -/
def accepted (h : MutationHistory) : Bool :=
  (h.reverse.takeWhile fun step ↦ !step.describes).any MutationStep.isAccepted

theorem accepted_append (h : MutationHistory) (step : MutationStep) :
    accepted (h ++ [step]) = (!step.describes && (step.isAccepted || accepted h)) := by
  unfold accepted
  rw [List.reverse_append, List.reverse_singleton, List.singleton_append, List.takeWhile_cons]
  cases step.describes <;> rfl

/-- The command that the description makes, if it can be sent. -/
def statement (kind : MutationKind) (table : Table) (h : MutationHistory) :
    List (String × Params) := (described kind table h).toSql.toOption.toList

/-- The commands that a call has to send after a history: sending sends the statement described,
waiting only where no command of it was accepted. -/
def owed (kind : MutationKind) (table : Table) (h : MutationHistory) :
    MutationCall → List (String × Params)
  | .execute => statement kind table h
  | .wait _ _ _ => if accepted h then [] else statement kind table h
  | _ => []

theorem mem_statement {c : String × Params} :
    c ∈ statement kind table h ↔ (described kind table h).toSql = .ok c := by
  unfold statement
  rcases (described kind table h).toSql with e | c' <;> simp [Except.toOption, eq_comm]

theorem length_statement_le (kind : MutationKind) (table : Table) (h : MutationHistory) :
    (statement kind table h).length ≤ 1 := by
  unfold statement
  cases (described kind table h).toSql.toOption <;> simp

/-- What is owed is the statement described. -/
theorem toSql_of_mem_owed {call : MutationCall} {c : String × Params}
    (hc : c ∈ owed kind table h call) : (described kind table h).toSql = .ok c := by
  cases call with
  | where_ o => cases hc
  | set given => cases hc
  | toSql => cases hc
  | execute => exact mem_statement.mp hc
  | wait interval limit rounds =>
    rw [owed] at hc
    split at hc
    · cases hc
    · exact mem_statement.mp hc

/-- A step that describes nothing leaves the description as it was. -/
theorem described_append {step : MutationStep} (hstep : step.describes = false) :
    described kind table (h ++ [step]) = described kind table h := by
  obtain ⟨hcondition, hassignments⟩ := Bool.or_eq_false_iff.mp hstep
  rw [Option.isSome_eq_false_iff, Option.isNone_iff_eq_none] at hcondition hassignments
  unfold described condition assignments
  rw [latest_append, latest_append, hcondition, hassignments, Option.none_or, Option.none_or]

/-- After a condition is given, that is the condition described. -/
theorem described_where {step : MutationStep} {o : Operand} (hcall : step.call = .where_ o) :
    described kind table (h ++ [step]) = (described kind table h).where_ o := by
  have hcondition : step.condition? = some o := by rw [MutationStep.condition?, hcall]
  have hassignments : step.assignments? = none := by rw [MutationStep.assignments?, hcall]
  unfold described condition assignments MutationDraft.where_
  rw [latest_append, latest_append, hcondition, hassignments, Option.none_or, Option.some_or]
  cases hnull : o.isNull <;> simp [Option.filter, hnull]

/-- After assignments are taken, those are the assignments described. -/
theorem described_set {step : MutationStep} {given : List (String × Operand)}
    {answer : Option (String × Params)} (hcall : step.call = .set given)
    (hanswer : step.answer = .ok answer) :
    described kind table (h ++ [step]) =
      { described kind table h with assignments := Keyed.ofList given } := by
  have hcondition : step.condition? = none := by rw [MutationStep.condition?, hcall]
  have hassignments : step.assignments? = some (Keyed.ofList given) := by
    rw [MutationStep.assignments?, hcall, hanswer]
  unfold described condition assignments
  rw [latest_append, latest_append, hcondition, hassignments, Option.none_or, Option.some_or,
    Option.getD_some]

/-- A draft with such a history: described as the history says, and if a statement was made of it,
that is the statement of the description, accepted when the history says so. -/
structure Leads (kind : MutationKind) (table : Table) (h : MutationHistory) (d : MutationDraft) :
    Prop where
  described_eq : d = { described kind table h with statement := d.statement }
  statement_eq : ∀ m ∈ d.statement, d.toSql = .ok (m.sql, m.params)
  accepted_eq : accepted h = d.statement.any Mutation.accepted

namespace Leads

variable {d d' : MutationDraft} {call : MutationCall} {exchanges : List Exchange}
  {answer : Except Failure (Option (String × Params))}

theorem nil (kind : MutationKind) (table : Table) : Leads kind table [] { kind, table } where
  described_eq := rfl
  statement_eq := fun _ hm ↦ by cases hm
  accepted_eq := rfl

/-- The draft's statement is that of the description. -/
theorem toSql_eq (hl : Leads kind table h d) : d.toSql = (described kind table h).toSql := by
  rw [hl.described_eq]
  rfl

theorem of_mutation {m : Mutation} (hl : Leads kind table h d) (hm : d.mutation = .ok m) :
    d.toSql = .ok (m.sql, m.params) ∧ accepted h = m.accepted := by
  unfold MutationDraft.mutation at hm
  rcases hs : d.statement with _ | m' <;> rw [hs] at hm
  · obtain ⟨⟨sql, params⟩, hsql, hrest⟩ := Succeeding.bind_eq_ok.mp hm
    cases hrest
    refine ⟨hsql, ?_⟩
    rw [hl.accepted_eq, hs]
    rfl
  · cases hm
    refine ⟨hl.statement_eq m hs, ?_⟩
    rw [hl.accepted_eq, hs]
    rfl

theorem of_mutation_error {e : Failure} (hl : Leads kind table h d) (hm : d.mutation = .error e) :
    (described kind table h).toSql = .error e := by
  unfold MutationDraft.mutation at hm
  rcases hs : d.statement with _ | m' <;> rw [hs] at hm
  · rw [← hl.toSql_eq]
    rcases hsql : d.toSql with e' | statement <;> simp only [hsql] at hm
    · cases hm
      rfl
    · cases hm
  · cases hm

/-- After a step that describes nothing the draft is as before, but for its statement. -/
theorem append {step : MutationStep} {statement : Option Mutation} (hl : Leads kind table h d)
    (hstep : step.describes = false) (hsql : ∀ m ∈ statement, d.toSql = .ok (m.sql, m.params))
    (haccepted : (step.isAccepted || accepted h) = statement.any Mutation.accepted) :
    Leads kind table (h ++ [step]) { d with statement } where
  described_eq := by
    rw [described_append hstep]
    conv => lhs; rw [hl.described_eq]
  statement_eq := hsql
  accepted_eq := by rw [accepted_append, hstep, Bool.not_false, Bool.true_and, haccepted]

/-- After a mutation was carried out the draft is as before, but for the mutation. -/
theorem append_carried {step : MutationStep} {m m' : Mutation} {owed : List (String × Params)}
    (hl : Leads kind table h d) (hm : d.mutation = .ok m) (hstep : step.describes = false)
    (hcarried : m.Carried owed m' step.exchanges) :
    Leads kind table (h ++ [step]) { d with statement := some m' } := by
  obtain ⟨hsql, haccepted⟩ := hl.of_mutation hm
  refine hl.append hstep ?_ ?_
  · intro m'' hm''
    cases hm''
    rw [hsql, hcarried.sql_eq, hcarried.params_eq]
  · rw [haccepted, Bool.or_comm]
    exact hcarried.accepted_eq.symm

/-- A call keeps a draft and its history together. -/
theorem step (hl : Leads kind table h d) (he : call.Effect d answer exchanges d') :
    Leads kind table (h ++ [⟨call, d, answer, exchanges, d'⟩]) d' := by
  cases he with
  | condition o =>
    refine ⟨?_, fun _ hm ↦ (by cases hm), accepted_append _ _⟩
    rw [described_where rfl]
    conv => lhs; rw [hl.described_eq]
    rfl
  | assigned hset =>
    obtain rfl := MutationDraft.set_eq_ok hset
    refine ⟨?_, fun _ hm ↦ (by cases hm), accepted_append _ _⟩
    rw [described_set rfl rfl]
    conv => lhs; rw [hl.described_eq]
  | unassigned hset => exact hl.append rfl hl.statement_eq hl.accepted_eq
  | told => exact hl.append rfl hl.statement_eq hl.accepted_eq
  | unsent hcall hm =>
    refine hl.append ?_ hl.statement_eq hl.accepted_eq
    rcases hcall with rfl | ⟨interval, limit, rounds, rfl⟩ <;> rfl
  | executed hm hcarried => exact hl.append_carried hm rfl hcarried
  | waited interval limit rounds hm hcarried => exact hl.append_carried hm rfl hcarried

/-- A call sends what the history owes. -/
theorem commands_eq (hl : Leads kind table h d) (he : call.Effect d answer exchanges d') :
    Exchange.commands exchanges = owed kind table h call := by
  cases he with
  | condition o => rfl
  | assigned hset => rfl
  | unassigned hset => rfl
  | told => rfl
  | unsent hcall hm =>
    have hnone : statement kind table h = [] := by
      rw [statement, hl.of_mutation_error hm]
      rfl
    rcases hcall with rfl | ⟨interval, limit, rounds, rfl⟩
    · exact hnone.symm
    · rw [owed, hnone, ite_self]
      rfl
  | executed hm hcarried =>
    obtain ⟨hsql, -⟩ := hl.of_mutation hm
    rw [hcarried.commands_eq, owed, statement, ← hl.toSql_eq, hsql]
    rfl
  | waited interval limit rounds hm hcarried =>
    obtain ⟨hsql, haccepted⟩ := hl.of_mutation hm
    rw [hcarried.commands_eq, owed, statement, ← hl.toSql_eq, hsql, haccepted]
    rfl

end Leads

end MutationHistory

/-! ### Whole lives -/

namespace MutationDraft

open MutationHistory

/-- A statement can be made only for a table that may change, with a condition, and, for an update,
with assignments. -/
theorem of_toSql {d : MutationDraft} {c : String × Params} (h : d.toSql = .ok c) :
    d.table.options.appendOnly = false ∧ d.condition.isSome ∧
      (d.kind = .update → d.assignments ≠ []) := by
  obtain ⟨o, ho, -⟩ := Succeeding.bind_eq_ok.mp h
  unfold checked at ho
  split at ho
  · cases ho
  · next hgrows =>
    refine ⟨Bool.eq_false_iff.mpr hgrows, ?_⟩
    split at ho
    · cases ho
    · next hcondition =>
      refine ⟨by rw [hcondition]; rfl, ?_⟩
      rintro hkind hnil
      rw [hkind, hnil] at ho
      cases ho

/-- Every step of a history is led to by the steps before it, and has the effect of its call. -/
theorem leads_of_history {kind : MutationKind} {table : Table} {client : Client σ}
    {calls : List MutationCall} {d : MutationDraft} {s : σ} {h before after : MutationHistory}
    {step : MutationStep} (hl : Leads kind table h d)
    (hsteps : d.history client calls s = before ++ step :: after) :
    Leads kind table (h ++ before) step.before ∧
      step.call.Effect step.before step.answer step.exchanges step.after := by
  induction calls generalizing d s h before with
  | nil => exact absurd hsteps.symm (by simp [history])
  | cons call calls ih =>
    have he := call.effect_step client d s
    rcases List.append_eq_cons_iff.mp hsteps.symm with ⟨rfl, hrest⟩ | ⟨before', rfl, hrest⟩
    · obtain ⟨rfl, -⟩ := List.cons.inj hrest
      rw [List.append_nil]
      exact ⟨hl, he⟩
    · rw [List.append_cons]
      exact ih (hl.step he) hrest

/-- The steps of a history are those of the calls, in order. -/
theorem map_call_history (client : Client σ) (calls : List MutationCall) (d : MutationDraft)
    (s : σ) : (d.history client calls s).map MutationStep.call = calls := by
  induction calls generalizing d s with
  | nil => rfl
  | cons call calls ih => exact congrArg (call :: ·) (ih _ _)

/-- Over any row of calls and whatever the client answers: each call sends the commands owed, each
of them is the statement of the last description, on a table that may change, with a condition and,
for an update, with assignments; the same statement is answered when it is asked for. Assignments
that are refused leave the draft, and the statement made of it, as they were. Waiting, for however
many rounds, sends at most one command, and none once a command of the description was accepted. -/
theorem dispatch (kind : MutationKind) (table : Table) (client : Client σ)
    (calls : List MutationCall) (s : σ) :
    let h := ({ kind, table } : MutationDraft).history client calls s
    h.map MutationStep.call = calls ∧
    ∀ before step after, h = before ++ step :: after →
      step.commands = owed kind table before step.call ∧
      (∀ c ∈ step.commands, (described kind table before).toSql = .ok c ∧
        table.options.appendOnly = false ∧ (described kind table before).condition.isSome ∧
        (kind = .update → (described kind table before).assignments ≠ [])) ∧
      (step.call = .toSql → step.answer = (described kind table before).toSql.map some) ∧
      (∀ given failure, step.call = .set given → step.answer = .error failure →
        step.after = step.before) ∧
      ∀ interval limit rounds, step.call = .wait interval limit rounds →
        step.commands.length ≤ 1 ∧ (accepted before = true → step.commands = []) := by
  refine ⟨map_call_history client calls _ s, fun before step after hsteps ↦ ?_⟩
  obtain ⟨hl, he⟩ := leads_of_history (.nil kind table) hsteps
  rw [List.nil_append] at hl
  have howed : step.commands = owed kind table before step.call := hl.commands_eq he
  refine ⟨howed, fun c hc ↦ ?_, fun hcall ↦ ?_, fun given failure hcall hanswer ↦ ?_,
    fun interval limit rounds hcall ↦ ?_⟩
  · have hsql := toSql_of_mem_owed (howed ▸ hc)
    exact ⟨hsql, of_toSql hsql⟩
  · rw [hcall] at he
    rw [he.answer_eq_of_toSql, hl.toSql_eq]
  · rw [hcall, hanswer] at he
    exact he.after_eq_of_refused
  · rw [howed, hcall, owed]
    split
    · next haccepted => exact ⟨Nat.zero_le _, fun _ ↦ rfl⟩
    · next haccepted => exact ⟨length_statement_le kind table before, fun h ↦ absurd h haccepted⟩

private def visits : Table :=
  { name := "visits",
    columns := [("id", { name := "id", type := "UInt64", table := some "visits" })],
    options := { appendOnly := false } }

private def late : Operand :=
  .expression ⟨{}, .column "" { name := "id", type := "UInt64", table := some "visits" }
    (.literal " > " (.int 7) (.done ""))⟩

private def waitingTwice : MutationHistory :=
  ({ kind := .delete, table := visits } : MutationDraft).history Script.client
    [.where_ late, .wait 500 60000, .wait 500 60000] {}

/-- Of two waits in a row the first sends the command and the second, which finds it accepted,
sends none. -/
theorem dispatch_waitingTwice : ∃ described first second,
    waitingTwice = [described, first, second] ∧
    first.commands = [("ALTER TABLE `visits` DELETE WHERE `id` > \x7bp_1:UInt64\x7d",
      [("p_1", .int 7)])] ∧
    accepted [described, first] = true ∧ second.commands = [] := by
  obtain ⟨-, hsteps⟩ := dispatch .delete visits Script.client
    [.where_ late, .wait 500 60000, .wait 500 60000] {}
  obtain ⟨hfirst, -⟩ := hsteps [_] _ [_] rfl
  obtain ⟨-, -, -, -, hwait⟩ := hsteps [_, _] _ [] rfl
  exact ⟨_, _, _, rfl, hfirst.trans rfl, rfl, (hwait 500 60000 _ rfl).2 rfl⟩

end MutationDraft

end Columnar
