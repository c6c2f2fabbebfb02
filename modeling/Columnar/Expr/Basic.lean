import Columnar.Column
import Columnar.Value.Equality

/-!
# Expressions

An expression is text with slots: a column, a nested expression, a literal value or raw SQL
stands between two pieces of text. `Body.weave` and `Body.ofParts?` build one from pieces,
`Body.chunks` and `Body.slots` take it apart again (`chunks_slots_of_ofParts?`).
-/

namespace Columnar

/-- The output name and the result type declared for an expression. -/
structure Label where
  aliasName : Option String := none
  type : Option String := none
  deriving DecidableEq, Repr, Inhabited

/-- The text and the slots of an expression, from left to right. A `missing` body belongs to an
expression declared without any text. -/
inductive Body where
  | missing
  | done (text : String)
  | column (text : String) (c : Column) (rest : Body)
  | nested (text : String) (label : Label) (inner rest : Body)
  | literal (text : String) (v : Value) (rest : Body)
  | raw (text insert : String) (rest : Body)
  deriving Repr, Inhabited

/-- A body with its declared output name and type. -/
structure Expr where
  label : Label := {}
  body : Body
  deriving Repr, Inhabited

/-- What stands between two pieces of text. -/
inductive Slot where
  | column (c : Column)
  | expression (e : Expr)
  | literal (v : Value)
  | raw (text : String)
  deriving Repr, Inhabited

/-- The name of the kind of a slot. -/
def Slot.kindName : Slot → String
  | column _ => "column"
  | expression _ => "expression"
  | literal _ => "literal"
  | raw _ => "raw"

/-- The direction of an ordering. -/
inductive Direction where
  | asc | desc
  deriving DecidableEq, Repr, Inhabited

/-- The keyword of a direction. -/
def Direction.keyword : Direction → String
  | asc => "ASC"
  | desc => "DESC"

/-- The direction with the given keyword. -/
def Direction.ofKeyword? : String → Option Direction
  | "ASC" => some .asc
  | "DESC" => some .desc
  | _ => none

/-- The keyword of a direction names that direction. -/
@[simp] theorem Direction.ofKeyword?_keyword (d : Direction) :
    Direction.ofKeyword? d.keyword = some d := by
  cases d <;> rfl

/-- What builders of expressions and queries are given. -/
inductive Operand where
  | value (v : Value)
  | column (c : Column)
  | expression (e : Expr)
  | raw (text : String)
  | ordering (item : Operand) (direction : Direction)
  deriving Repr, Inhabited

namespace Body

/-- Puts a piece of text and a slot in front of a body. -/
def cons (text : String) (slot : Slot) (rest : Body) : Body :=
  match slot with
  | .column c => .column text c rest
  | .expression e => .nested text e.label e.body rest
  | .literal v => .literal text v rest
  | .raw insert => .raw text insert rest

/-- A first piece of text, and slots each followed by a piece of text. -/
def weave (head : String) : List (Slot × String) → Body
  | [] => .done head
  | (slot, text) :: rest => cons head slot (weave text rest)

/-- The body with the given pieces of text and slots between them; there must be one piece more
than slots. -/
def ofParts? : List String → List Slot → Option Body
  | [text], [] => some (.done text)
  | text :: texts, slot :: slots => (ofParts? texts slots).map (cons text slot)
  | _, _ => none

/-- The pieces of text, in order. -/
def chunks : Body → List String
  | missing => []
  | done text => [text]
  | column text _ rest => text :: rest.chunks
  | nested text _ _ rest => text :: rest.chunks
  | literal text _ rest => text :: rest.chunks
  | raw text _ rest => text :: rest.chunks

/-- The slots, in order. -/
def slots : Body → List Slot
  | missing => []
  | done _ => []
  | column _ c rest => .column c :: rest.slots
  | nested _ label inner rest => .expression ⟨label, inner⟩ :: rest.slots
  | literal _ v rest => .literal v :: rest.slots
  | raw _ insert rest => .raw insert :: rest.slots

/-- The pieces of text of a body after a piece and a slot. -/
@[simp] theorem chunks_cons (text : String) (slot : Slot) (rest : Body) :
    (cons text slot rest).chunks = text :: rest.chunks := by
  cases slot <;> rfl

/-- The slots of a body after a piece and a slot. -/
@[simp] theorem slots_cons (text : String) (slot : Slot) (rest : Body) :
    (cons text slot rest).slots = slot :: rest.slots := by
  cases slot <;> rfl

/-- A body is built from exactly the parts it is given. -/
theorem chunks_slots_of_ofParts? {texts : List String} {slots : List Slot} {b : Body}
    (h : ofParts? texts slots = some b) : b.chunks = texts ∧ b.slots = slots := by
  induction texts generalizing slots b with
  | nil => cases slots <;> simp [ofParts?] at h
  | cons text texts ih =>
    cases slots with
    | nil =>
      cases texts with
      | nil =>
        simp only [ofParts?, Option.some.injEq] at h
        subst h
        exact ⟨rfl, rfl⟩
      | cons _ _ => simp [ofParts?] at h
    | cons slot slots =>
      simp only [ofParts?, Option.map_eq_some_iff] at h
      obtain ⟨inner, hi, rfl⟩ := h
      obtain ⟨hc, hs⟩ := ih hi
      simp [hc, hs]

/-- Parts make a body exactly when there is one piece of text more than slots. -/
theorem ofParts?_isSome (texts : List String) (slots : List Slot) :
    (ofParts? texts slots).isSome ↔ texts.length = slots.length + 1 := by
  induction texts generalizing slots with
  | nil => cases slots <;> simp [ofParts?]
  | cons text texts ih =>
    cases slots with
    | nil => cases texts <;> simp [ofParts?]
    | cons slot slots => simp [ofParts?, ih]

end Body

namespace Expr

/-- The same expression selected under another name. -/
def withAlias (e : Expr) (aliasName : Option String) : Expr :=
  { e with label := { e.label with aliasName } }

/-- The same expression with another declared type. -/
def withType (e : Expr) (type : Option String) : Expr :=
  { e with label := { e.label with type } }

end Expr

namespace Operand

/-- The kind of an operand. -/
def kind : Operand → Kind
  | value v => v.kind
  | column _ => .column
  | expression ⟨_, .missing⟩ => .abstract
  | expression _ => .expression
  | raw _ => .slot
  | ordering .. => .ordering

/-- Whether the operand is null. -/
def isNull : Operand → Bool
  | value v => v.isNull
  | _ => false

/-- The value, when the operand is one. -/
def value? : Operand → Option Value
  | value v => some v
  | _ => none

/-- The same operand selected under another name; only columns and expressions have one. -/
def withAlias (aliasName : Option String) : Operand → Except Failure Operand
  | column c => .ok (column (c.withAlias aliasName))
  | expression e => .ok (expression (e.withAlias aliasName))
  | o => .error (.noAttribute o.kind.native "as_")

/-- The same operand with a declared type; only expressions take one. -/
def withType (type : Option String) : Operand → Except Failure Operand
  | expression e => .ok (expression (e.withType type))
  | o => .error (.noAttribute o.kind.native "typed")

/-- An ordering by the operand; only columns and expressions have one. -/
def ordered (direction : Direction) : Operand → Except Failure Operand
  | column c => .ok (ordering (column c) direction)
  | expression e => .ok (ordering (expression e) direction)
  | o =>
    let method := match direction with
      | .asc => "asc"
      | .desc => "desc"
    .error (.noAttribute o.kind.native method)

end Operand

end Columnar
