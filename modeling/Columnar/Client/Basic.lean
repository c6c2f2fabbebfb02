import Columnar.Session
import Columnar.Value.Equality

/-!
# Clients

A client answers queries with rows and accepts commands, each with named parameters, and lets
time pass. Its state is of any type: a client is what it does to that state.
-/

namespace Columnar

/-- A row: the names of its columns and their cells, in order. -/
abbrev Row := List (Value × Value)

/-- Named parameters of a statement. -/
abbrev Params := List (String × Value)

/-- A client with states of type `σ`. Times are in milliseconds. -/
structure Client (σ : Type) where
  /-- Runs a query and gives its rows. -/
  query : String → Params → σ → Except Failure (List Row) × σ
  /-- Runs a statement without rows. -/
  command : String → Params → σ → Except Failure Unit × σ
  /-- The time on the client's clock. -/
  now : σ → Int
  /-- Lets a number of milliseconds pass. -/
  sleep : Int → σ → σ

namespace Client

variable {σ : Type}

/-- A query as a session computation. -/
def rows (client : Client σ) (sql : String) (params : Params) : Session σ (List Row) := fun s ↦
  let (answer, s) := client.query sql params s
  (.ofExcept answer, s)

/-- A command as a session computation. -/
def run (client : Client σ) (sql : String) (params : Params) : Session σ Unit := fun s ↦
  let (answer, s) := client.command sql params s
  (.ofExcept answer, s)

end Client

/-- Logs a failure and passes it on. -/
def Session.logFailure {σ α : Type} (text : String) (x : Session σ α) : Session σ α :=
  tryCatch x fun e ↦ do
    Traced.record .error text
    throw e

end Columnar
