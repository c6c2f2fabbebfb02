import Columnar.Client.Basic

/-!
# Scripted clients

A client that answers from a script: the first entry whose fragment occurs in the statement gives
its next rows, and its last rows again and again; an entry without rows to give makes its queries
fail. It keeps a list of the calls it got, can be told to fail, and its clock advances by exactly
the time slept.
-/

namespace Columnar

/-- Whether characters occur in a row inside others. -/
def Text.occursIn (part : List Char) : List Char → Bool
  | [] => part.isEmpty
  | c :: rest => part.isPrefixOf (c :: rest) || occursIn part rest

/-- What a script answers to the queries with a fragment. -/
structure ScriptEntry where
  fragment : String
  answers : List (List Row)
  deriving Inhabited

/-- One call a client got: a query or a command with its parameters. -/
structure Call where
  isQuery : Bool
  sql : String
  params : Params
  deriving Inhabited

/-- The state of a scripted client. -/
structure Script where
  entries : List ScriptEntry := []
  failing : Option Failure := none
  calls : List Call := []
  clock : Int := 0
  deriving Inhabited

namespace Script

/-- The answer of the first entry that matches, and the entries after it gave it. -/
def answer (sql : String) : List ScriptEntry → Except Failure (List Row) × List ScriptEntry
  | [] => (.ok [], [])
  | e :: rest =>
    if Text.occursIn e.fragment.toList sql.toList then
      match e.answers with
      | [] => (.error (.noIndex .list), e :: rest)
      | [rows] => (.ok rows, e :: rest)
      | rows :: more => (.ok rows, { e with answers := more } :: rest)
    else
      let (rows, after) := answer sql rest
      (rows, e :: after)

/-- Adds a call to the list of calls. -/
def note (call : Call) (s : Script) : Script := { s with calls := s.calls ++ [call] }

/-- The client that follows the script. -/
def client : Client Script where
  query sql params s :=
    let s := s.note ⟨true, sql, params⟩
    match s.failing with
    | some failure => (.error failure, s)
    | none =>
      let (rows, entries) := answer sql s.entries
      (rows, { s with entries })
  command sql params s :=
    let s := s.note ⟨false, sql, params⟩
    match s.failing with
    | some failure => (.error failure, s)
    | none => (.ok (), s)
  now s := s.clock
  sleep n s := { s with clock := s.clock + n }

/-- The clock advances by exactly the time slept. -/
theorem now_sleep (n : Int) (s : Script) : client.now (client.sleep n s) = client.now s + n := rfl

end Script

end Columnar
