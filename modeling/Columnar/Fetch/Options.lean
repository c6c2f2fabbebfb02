import Columnar.Checked
import Columnar.Expr.Basic
import Columnar.Keyed
import Columnar.Table
import Columnar.Value.Access

/-!
# Options of a fetch

What a fetch and each of its relations may be told: a filter, a limit, an offset, the relations
below and, for the root, how tables are joined. A relation is requested by any value that counts
as present, by a record of options, or by options made before.
-/

namespace Columnar

/-- How the tables of a fetch are joined. -/
inductive JoinStrategy where
  | auto | standard | global | any | globalAny
  deriving DecidableEq, Repr, Inhabited

namespace JoinStrategy

/-- The name of a strategy. -/
def name : JoinStrategy → String
  | auto => "auto"
  | standard => "standard"
  | global => "global"
  | any => "any"
  | globalAny => "global_any"

/-- The strategy with a name. -/
def ofName? (s : String) : Option JoinStrategy :=
  [auto, standard, global, any, globalAny].find? fun strategy ↦ strategy.name = s

/-- The strategy with a name; a name without strategy stands for the standard one. -/
def named (s : String) : JoinStrategy := (ofName? s).getD standard

/-- A strategy is found by its name. -/
theorem ofName?_name (s : JoinStrategy) : ofName? s.name = some s := by
  cases s <;> decide

/-- The keyword that joins a target to a source: global when asked for or, without a choice,
when one of the tables is distributed; with at most one match per row when asked for. -/
def keyword (s : JoinStrategy) (source target : Table) : String :=
  let isGlobal := match s with
    | global | globalAny => true
    | auto => source.isDistributed || target.isDistributed
    | _ => false
  let isAny := match s with
    | any | globalAny => true
    | _ => false
  match isGlobal, isAny with
  | true, true => "GLOBAL ANY LEFT"
  | true, false => "GLOBAL LEFT"
  | false, true => "ANY LEFT"
  | false, false => "LEFT"

end JoinStrategy

/-- A condition on the rows of a table: as it is, or as a function of the table's columns. -/
inductive Filter where
  | fixed (o : Operand)
  | byColumns (f : Columns → Except Failure Operand)

instance : Inhabited Filter := ⟨.fixed (.value .null)⟩

/-- The condition for a table, none for null. -/
def Filter.resolve (t : Table) : Filter → Except Failure (Option Operand)
  | fixed o => .ok (if o.isNull then none else some o)
  | byColumns f => do
    let o ← f t.columns
    return if o.isNull then none else some o

mutual

/-- What is given for a relation: a plain value, a record of options, or options made before. A
`nameless` value was given under a key that is no text, so that no relation has its name. -/
inductive Choice where
  | plain (v : Value)
  | nameless (v : Value)
  | fields (entries : List (String × Field))
  | ready (entries : List (String × Field))

/-- What is given for one option: a plain value, a filter or a tree of relations. -/
inductive Field where
  | plain (v : Value)
  | filter (f : Filter)
  | tree (entries : List (String × Choice))

end

instance : Inhabited Choice := ⟨.plain .null⟩

instance : Inhabited Field := ⟨.plain .null⟩

/-- The options of a fetch or of one of its relations. -/
structure FindOptions where
  filter : Filter := default
  limit : Option Int := none
  offset : Option Int := none
  related : Option (List (String × Choice)) := none
  strategy : JoinStrategy := .auto
  /-- Whether the strategy was given at all. -/
  setsStrategy : Bool := false
  deriving Inhabited

namespace Field

/-- The filter an option stands for. -/
def toFilter : Field → Filter
  | plain v => .fixed (.value v)
  | filter f => f
  | tree _ => .fixed (.value (.map []))

/-- The plain entries of a mapping as a tree of relations. -/
def treeOf (entries : List (Value × Value)) : List (String × Choice) :=
  entries.map fun
    | (.text name, v) => (name, .plain v)
    | (key, v) => (key.display, .nameless v)

/-- An option that is an integer or null. -/
def readInteger : Field → Except Issue (Option Int)
  | plain v => Read.optional Read.integer v
  | _ => .error .intType

/-- An option that is a tree of relations or null. -/
def readTree : Field → Checked (Option (List (String × Choice)))
  | plain .null => pure none
  | plain (.map entries) =>
    let problems := entries.filterMap fun e ↦
      match e.1 with
      | .text _ => none
      | k => some (⟨["with", Read.keyPath k, "[key]"], .stringType⟩ : Problem)
    if problems.isEmpty then pure (some (treeOf entries)) else Checked.bad problems
  | tree entries => pure (some (Keyed.ofList entries))
  | _ => Checked.bad [⟨["with"], .dictType⟩]

/-- An option that names a join strategy. -/
def readStrategy : Field → Except Issue JoinStrategy
  | plain (.text s) =>
    match JoinStrategy.ofName? s with
    | some strategy => .ok strategy
    | none => .error .literalError
  | _ => .error .literalError

/-- The tree that an option stands for where it is not checked: what is empty has no relations,
and what has no entries cannot be one. -/
def asTree : Field → Except Failure (List (String × Choice))
  | tree entries => .ok (Keyed.ofList entries)
  | plain (.map entries) => .ok (treeOf entries)
  | plain v => if v.isTruthy then .error (.noAttribute v.kind.native "items") else .ok []
  | filter _ => .ok []

end Field

namespace FindOptions

/-- The name of the tree of relations among named fields: `with`, or `with_` when that is absent. -/
def treeName (entries : List (String × Field)) : String :=
  if Keyed.contains "with" entries then "with" else "with_"

/-- The problem of a key that is no option. -/
def keyProblem? (treeName : String) : Value → Option Problem
  | .text key =>
    if ["where", "limit", "offset", treeName, "join_strategy"].contains key then none
    else some ⟨[key], .extraForbidden⟩
  | key => some ⟨[Read.keyPath key], .invalidKey⟩

/-- Reads options from named fields; of the keys they were given under, any that is no option is a
problem. -/
def readUnder (keys : List Value) (entries : List (String × Field)) : Checked FindOptions :=
  let integer (key : String) : Checked (Option Int) :=
    match Keyed.find? key entries with
    | some f => Checked.field key f.readInteger
    | none => pure none
  let tree : Checked (Option (List (String × Choice))) :=
    match Keyed.find? (treeName entries) entries with
    | some f => f.readTree
    | none => pure none
  let strategy : Checked JoinStrategy :=
    match Keyed.find? "join_strategy" entries with
    | some f => Checked.field "join_strategy" f.readStrategy
    | none => pure .auto
  let extra : Checked Unit :=
    let problems := keys.filterMap (keyProblem? (treeName entries))
    if problems.isEmpty then pure () else Checked.bad problems
  let filter := (Keyed.find? "where" entries).elim default Field.toFilter
  (fun limit offset related strategy _ ↦
    { filter, limit, offset, related, strategy,
      setsStrategy := Keyed.contains "join_strategy" entries })
    <$> integer "limit" <*> integer "offset" <*> tree <*> strategy <*> extra

/-- Reads options from named fields. -/
def read (entries : List (String × Field)) : Checked FindOptions :=
  readUnder ((Keyed.keys entries).map .text) entries

/-- Reads options from the entries of a mapping. -/
def readMap (entries : List (Value × Value)) : Checked FindOptions :=
  readUnder (entries.map Prod.fst) <| entries.filterMap fun
    | (.text key, v) => some (key, .plain v)
    | _ => none

/-- A number of rows that counts: neither absent nor zero. -/
def counted (n : Option Int) : Option Int := n.filter (· ≠ 0)

end FindOptions

namespace Choice

/-- Whether a relation is requested at all. -/
def isPresent : Choice → Bool
  | plain v | nameless v => v.isTruthy
  | fields entries => !entries.isEmpty
  | ready _ => true

/-- Whether the key may be the name of a relation. -/
def isNamed : Choice → Bool
  | nameless _ => false
  | _ => true

/-- The options of a requested relation; a value that is no record of options stands for the
defaults. -/
def options : Choice → Except Failure FindOptions
  | plain (.map entries) | nameless (.map entries) => (FindOptions.readMap entries).toExcept
  | plain _ | nameless _ => .ok {}
  | fields entries => (FindOptions.read entries).toExcept
  | ready entries => (FindOptions.read entries).toExcept

end Choice

end Columnar
