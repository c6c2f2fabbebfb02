import Columnar.Expr.Render

/-!
# Inlined statements

A statement that becomes part of another one gets new numbers for its parameters: each is bound
again under the next number, and the placeholders in its text are renamed.
-/

namespace Columnar

/-- A finished statement: its text, the parameters it binds, the names and types of its columns
and the hints gathered for it. -/
structure Statement where
  sql : String
  params : List (String × Value) := []
  columns : List (String × String) := []
  suggestions : List String := []
  deriving Repr, Inhabited

namespace Statement

/-- The renaming whose old name, followed by a colon, begins the characters. -/
def renamingAt (names : List (String × String)) (cs : List Char) : Option (String × String) :=
  names.find? fun n ↦ (n.1.toList ++ [':']).isPrefixOf cs

/-- Renames every placeholder. After one is found the `skip` characters of its old name are
passed over. -/
def renameFrom (names : List (String × String)) (skip : Nat) : List Char → List Char
  | [] => []
  | c :: rest =>
    match skip with
    | skip + 1 => renameFrom names skip rest
    | 0 =>
      if c == '{' then
        match renamingAt names rest with
        | some (old, new) => c :: new.toList ++ renameFrom names old.length rest
        | none => c :: renameFrom names 0 rest
      else c :: renameFrom names 0 rest

/-- The text with its placeholders renamed. -/
def rename (names : List (String × String)) (sql : String) : String :=
  String.ofList (renameFrom names 0 sql.toList)

/-- Binds parameters again, each under the next number; the old names with the new ones. -/
def rebind : List (String × Value) → Bindings → List (String × String) × Bindings
  | [], b => ([], b)
  | (name, v) :: rest, b =>
    let b := b.next
    let (names, final) := rebind rest (b.push v)
    ((name, Bindings.nameOf b.count) :: names, final)

/-- The text of the statement inside another one, whose parameters so far are given. -/
def inline (s : Statement) (b : Bindings) : String × Bindings :=
  let (names, b) := rebind s.params b
  (rename names s.sql, b)

/-- Every parameter is renamed. -/
theorem length_rebind (params : List (String × Value)) (b : Bindings) :
    (rebind params b).1.length = params.length := by
  induction params generalizing b with
  | nil => rfl
  | cons p rest ih => simp [rebind, ih]

/-- The values stay the same and in order. -/
theorem params_rebind (params : List (String × Value)) (b : Bindings) :
    (rebind params b).2.params.map Prod.snd = b.params.map Prod.snd ++ params.map Prod.snd := by
  induction params generalizing b with
  | nil => simp [rebind]
  | cons p rest ih => simp [rebind, ih, Bindings.push, Bindings.next]

end Statement

end Columnar
