import Columnar.Client.Basic
import Columnar.Mutation.Basic

/-!
# Sending mutations and waiting for them

A mutation is done some time after the server has accepted it. Waiting asks for its status again
and again, with a pause after each undecided answer, until an answer is decisive or more time has
passed than allowed. Nothing else ends it: the number of rounds that `wait` is given is no limit of
the program's, and only cuts short a wait that would go on.
-/

namespace Columnar

/-- What a status says of a mutation. -/
inductive Verdict where
  | done
  | failed (reason : Value)
  | undecided
  deriving Inhabited

/-- The verdict of the rows of a status query: no row, or a row that is done, means done; a
reason of failure counts before everything else in the row. -/
def Verdict.ofRows : List Row → Except Failure Verdict
  | [] => .ok .done
  | row :: _ => do
    let reason := Value.get "latest_fail_reason" row
    if reason.isTruthy then return .failed reason
    else if ← (Value.get "is_done" row).same (.int 1) then return .done
    else return .undecided

namespace Mutation

variable {σ : Type}

/-- Asks for the newest mutation of a table. -/
def latestSql : String :=
  "SELECT mutation_id FROM system.mutations "
    ++ "WHERE database = currentDatabase() AND table = \x7btable:String\x7d "
    ++ "ORDER BY create_time DESC LIMIT 1"

/-- Asks how far a mutation of a table is. -/
def statusSql : String :=
  "SELECT is_done, latest_failed_part, latest_fail_reason FROM system.mutations "
    ++ "WHERE database = currentDatabase() AND table = \x7btable:String\x7d "
    ++ "AND mutation_id = \x7bmid:String\x7d"

/-- Sends the mutation and asks for the name the server gave it. -/
def execute (client : Client σ) : Session (Mutation × σ) Unit := do
  let m := (← get).1
  ((client.run m.sql m.params).logFailure ("Mutation failed: " ++ m.sql)).onSecond
  modify fun s ↦ ({ s.1 with accepted := true }, s.2)
  let rows ← (client.rows latestSql [("table", .text m.table)]).onSecond
  let id := match rows with
    | row :: _ => Value.get "mutation_id" row
    | [] => .null
  modify fun s ↦ ({ s.1 with id }, s.2)

/-- The rounds that a wait may make when no number is given. With a pause these are enough: one for
each pause that fits into the time, and two more. Without a pause the clock may stand still, and no
number is enough for a server that never decides. -/
def pollLimit (interval limit : Int) : Nat :=
  if 0 < interval then (limit / interval).toNat + 2 else 100000

/-- Asks for the status until it is decisive or, measured from `start`, the time is up; at most
so many times. -/
def poll (client : Client σ) (m : Mutation) (interval limit start : Int) : Nat → Session σ Unit
  | 0 => throw (.waitTimeout m.id limit)
  | polls + 1 => do
    let rows ← client.rows statusSql [("table", .text m.table), ("mid", m.id)]
    match ← liftM (m := Except Failure) (n := Traced) (Verdict.ofRows rows) with
    | .failed reason => throw (.mutationFailed m.id reason)
    | .done => return
    | .undecided =>
      if limit < client.now (← get) - start then throw (.waitTimeout m.id limit)
      modify (client.sleep interval)
      poll client m interval limit start polls

/-- The pause between two status queries, in milliseconds, when none is given. -/
def defaultInterval : Int := 500

/-- The time allowed, in milliseconds, when none is given. -/
def defaultLimit : Int := 60000

/-- Waits until the mutation is done, and sends it first if it was not sent yet. A mutation
without name cannot be waited for. -/
def wait (client : Client σ) (interval limit : Int) (rounds : Nat := pollLimit interval limit) :
    Session (Mutation × σ) Unit := do
  if !(← get).1.accepted then execute client
  let m := (← get).1
  if m.id.isNull then return
  let start := client.now (← get).2
  (poll client m interval limit start rounds).onSecond

end Mutation

namespace MutationDraft

variable {σ : Type}

/-- Runs a computation on the mutation described. -/
def onMutation {α : Type} (x : Session (Mutation × σ) α) : Session (MutationDraft × σ) α := fun s ↦
  match s.1.mutation with
  | .error failure => (throw failure, s)
  | .ok m =>
    let (answer, m, client) := x (m, s.2)
    (answer, ({ s.1 with statement := some m }, client))

/-- The mutation described, which from now on is the one sent. -/
def build : Session (MutationDraft × σ) Mutation := onMutation (return (← get).1)

/-- Sends the mutation described. -/
def execute (client : Client σ) : Session (MutationDraft × σ) Unit :=
  onMutation (Mutation.execute client)

/-- Waits for the mutation described. -/
def wait (client : Client σ) (interval limit : Int)
    (rounds : Nat := Mutation.pollLimit interval limit) : Session (MutationDraft × σ) Unit :=
  onMutation (Mutation.wait client interval limit rounds)

end MutationDraft

end Columnar
