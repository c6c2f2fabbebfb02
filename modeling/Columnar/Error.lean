import Columnar.Value.Text

/-!
# Failures

Every way in which building, compiling, fetching or changing can fail, as a cause with what its
message needs. `Failure.category` sorts the causes, `Failure.message` gives their wording.
-/

namespace Columnar

/-- What is wrong with one field of a record of options. -/
inductive Issue where
  | missing | stringType | boolType | boolParsing | intType | intParsing | intParsingSize
  | intFromFloat | finiteNumber | floatType | floatParsing | literalError | extraForbidden
  | invalidKey
  | tupleType | dictType | modelType
  | refused (reason : String)
  deriving DecidableEq, Repr

/-- The code of an issue. -/
def Issue.code : Issue → String
  | missing => "missing"
  | stringType => "string_type"
  | boolType => "bool_type"
  | boolParsing => "bool_parsing"
  | intType => "int_type"
  | intParsing => "int_parsing"
  | intParsingSize => "int_parsing_size"
  | intFromFloat => "int_from_float"
  | finiteNumber => "finite_number"
  | floatType => "float_type"
  | floatParsing => "float_parsing"
  | literalError => "literal_error"
  | extraForbidden => "extra_forbidden"
  | invalidKey => "invalid_key"
  | tupleType => "tuple_type"
  | dictType => "dict_type"
  | modelType => "model_type"
  | refused reason => "value_error: Value error, " ++ reason

/-- An issue and the path of the field that has it. -/
structure Problem where
  path : List String
  issue : Issue
  deriving DecidableEq, Repr

/-- The path and the code of a problem. -/
def Problem.message (p : Problem) : String := ".".intercalate p.path ++ ": " ++ p.issue.code

/-- A part of a date, a time or an offset that has a range. -/
inductive DatePart where
  | year (n : Int)
  | month | day | hour | minute | second | microsecond
  | offset (seconds : Int)
  deriving DecidableEq, Repr

/-- The range of a part that is not in it. -/
def DatePart.message : DatePart → String
  | year n => "year " ++ Text.ofInt n ++ " is out of range"
  | month => "month must be in 1..12"
  | day => "day is out of range for month"
  | hour => "hour must be in 0..23"
  | minute => "minute must be in 0..59"
  | second => "second must be in 0..59"
  | microsecond => "microsecond must be in 0..999999"
  | offset seconds =>
    "offset must be a timedelta strictly between -timedelta(hours=24) and timedelta(hours=24), not "
      ++ DateTime.spanText seconds ++ "."

/-- What a failure is about. -/
inductive Category where
  | compilation | unknownRelation | waitTimeout | mutationFailed | badValue | badType
  | noAttribute | noKey | noIndex | overflow | invalidOperation | notImplemented | connection
  | runtime | timeout | validation
  deriving DecidableEq, Repr

/-- Why an operation failed. -/
inductive Failure where
  /-- A statement was asked of a query that reads no table. -/
  | noSource
  /-- A statement was asked of a query whose selection still waits for its table. -/
  | pendingSelection
  /-- A selected name has no column or expression and matches no column. -/
  | unknownField (name : String) (got : Option Kind) (table : String)
      (columns : List (String × String))
  /-- Something that is neither column nor expression stands where SQL is written. -/
  | notAnItem (got : Kind)
  /-- A literal was never supplied. -/
  | undefinedLiteral (position : Nat) (columns : List String) (before : String)
  /-- A key collected another number of values than the statement binds. -/
  | valueCount (collected bound : Nat)
  /-- A template was given the wrong number of values. -/
  | bindingCount (expected got : Nat)
  /-- A tree of relations is deeper than any fetch may be. -/
  | tooDeep (table : String) (limit : Nat)
  /-- A join strategy was given below the root of a fetch. -/
  | nestedStrategy (relation table : String)
  /-- A relation that the table does not declare. -/
  | noRelation (table relation : String) (declared : List String)
  /-- The two sides of a relation have different numbers of columns. -/
  | unevenRelation (target : String) (fields references : Nat)
  /-- Something else was declared as a relation. -/
  | notARelation (name table : String) (got : Kind)
  /-- A mutation was not done in time. -/
  | waitTimeout (mutation : Value) (limit : Int)
  /-- The server gave a reason why a mutation failed. -/
  | mutationFailed (mutation reason : Value)
  /-- A mutation of a table that only grows. -/
  | appendOnly (verb table : String)
  /-- A mutation without condition. -/
  | noCondition (verb : String)
  /-- An update that sets nothing. -/
  | noAssignments
  /-- A name that is no column of the table. -/
  | noSuchColumn (name table : String)
  /-- A primary key that names no column of the table. -/
  | noSuchPrimaryKey (name table : String)
  /-- A cache for less than one template. -/
  | cacheCapacity (capacity : Int)
  /-- A template text with another number of places than arguments. -/
  | placeholderCount (places arguments : Nat)
  /-- A call of a function without name. -/
  | noFunctionName
  /-- Merged rows were asked of a subquery. -/
  | finalSubquery
  /-- A join keyword that does not exist. -/
  | unsupportedJoin (keyword : String)
  /-- A condition on a cross join. -/
  | crossCondition
  /-- A join that needs a condition has none. -/
  | noJoinCondition (keyword : String)
  /-- A filter by column names before the table is known. -/
  | filterBeforeTable
  /-- A direction other than the two. -/
  | badDirection (got : Value)
  /-- Rows were asked of a query without database. -/
  | unbound
  /-- A connection that was never made. -/
  | noConnection (name : String)
  /-- A column declared by something else than a column or a type. -/
  | notAColumn (key table : String) (got : Kind)
  /-- Raw SQL that is not text. -/
  | rawNotText (got : Kind)
  /-- A selection that is neither a mapping nor a function. -/
  | notASelection (got : Kind)
  /-- A source that is neither a table nor a query. -/
  | notASource (got : Kind)
  /-- A condition that is neither an expression nor a mapping. -/
  | notACondition (got : Kind)
  /-- An ordering of something that cannot be ordered. -/
  | notOrderable (got : Kind)
  /-- A text that is no float. -/
  | notAFloat (text : String)
  /-- A text that is no integer in a base. -/
  | notAnInteger (base : Nat) (text : String)
  /-- A text that is no decimal. -/
  | notADecimal
  /-- A text that has not the length of an identifier. -/
  | notAUuid
  /-- A part of a date, a time or an offset is out of range. -/
  | partOutOfRange (part : DatePart)
  /-- A key that a JSON text cannot have. -/
  | jsonKey (got : Kind)
  /-- A key that a map cannot have. -/
  | unhashable (got : Kind)
  /-- Items were asked of a value that has none. -/
  | notIterable (got : Kind)
  /-- A part was asked of a value that has none. -/
  | notSubscriptable (got : Kind)
  /-- A part of a sequence was asked for by something that is no position. -/
  | badIndex (owner got : Kind)
  /-- A position that a sequence does not have. -/
  | noIndex (owner : Kind)
  /-- A position that no sequence can have. -/
  | hugeIndex
  /-- A list was to be added to something that is no list. -/
  | notExtensible (got : Kind)
  /-- Entries were asked of something that is no mapping. -/
  | notAMapping (got : Kind)
  /-- An item that is no pair where an entry of a mapping is meant. -/
  | notAPair (position : Nat)
  /-- An item of another length than two where an entry of a mapping is meant. -/
  | pairLength (position length : Nat)
  /-- A key of the signalling kind of what is no number. -/
  | signallingKey
  /-- Two values between which there is no order. -/
  | notOrdered (left right : Kind)
  /-- A date is not ordered with a date-time. -/
  | mixedDates
  /-- A reading of a clock with an offset is not ordered with one without. -/
  | mixedOffsets
  /-- A decimal that is no number, or is compared with none, has no order; of the signalling kind
  it is not compared with numbers at all. -/
  | nanComparison
  /-- Something that is no function stands where one is called. -/
  | notCallable (got : Kind)
  /-- A name that is not text where a column is looked up by it. -/
  | nameNotText (got : Kind)
  /-- An operator was given another number of operands than it has places. -/
  | operandCount (name : String) (places : List String) (given : Nat)
  /-- A relation was declared without columns that its kind requires. -/
  | missingColumns (kind : String) (names : List String)
  /-- An instant outside the years that have a serial form. -/
  | dateOutOfRange
  /-- SQL or a signature was asked of an expression without body. -/
  | noBody (method : String)
  /-- A name that a set of columns does not have, asked for as an attribute. -/
  | noColumnAttribute (name : String)
  /-- A name that is neither a field nor a column of a table. -/
  | noTableAttribute (table name : String)
  /-- An attribute that things of this kind do not have. -/
  | noAttribute (owner name : String)
  /-- A table that a schema does not have. -/
  | noSchemaTable (name : String) (declared : List String)
  /-- An attribute of a schema that is reserved. -/
  | reservedName (name : String)
  /-- Parts of a query that do not exist. -/
  | unknownClauses (names : List String)
  /-- A key that is absent. -/
  | noKey (key : Value)
  /-- Options that were refused. -/
  | invalid (problems : List Problem)
  /-- A failure of the client, passed on as it came. -/
  | client (category : Category) (message : String)
  deriving Repr

namespace Failure

/-- The category of a failure. -/
def category : Failure → Category
  | noSource | pendingSelection | unknownField .. | notAnItem _ | undefinedLiteral ..
  | valueCount .. | bindingCount .. | tooDeep .. | nestedStrategy .. => .compilation
  | noRelation .. => .unknownRelation
  | waitTimeout .. => .waitTimeout
  | mutationFailed .. => .mutationFailed
  | unevenRelation .. | appendOnly .. | noCondition _ | noAssignments | noSuchColumn ..
  | noSuchPrimaryKey .. | cacheCapacity _ | placeholderCount .. | noFunctionName | finalSubquery
  | unsupportedJoin _ | crossCondition | noJoinCondition _ | filterBeforeTable | badDirection _
  | unbound | noConnection _ | pairLength .. | notAFloat _ | notAnInteger .. | notAUuid
  | partOutOfRange _ => .badValue
  | notARelation .. | notAColumn .. | rawNotText _ | notASelection _ | notASource _
  | notACondition _ | notOrderable _ | jsonKey _ | unhashable _ | notIterable _
  | notSubscriptable _ | badIndex .. | notExtensible _ | notAMapping _ | notAPair _
  | signallingKey | notOrdered .. | mixedDates | mixedOffsets | notCallable _ | nameNotText _
  | operandCount .. | missingColumns .. => .badType
  | noIndex _ | hugeIndex => .noIndex
  | nanComparison | notADecimal => .invalidOperation
  | dateOutOfRange => .overflow
  | noBody _ => .notImplemented
  | noColumnAttribute _ | noTableAttribute .. | noAttribute .. | noSchemaTable .. | reservedName _
  | unknownClauses _ => .noAttribute
  | noKey _ => .noKey
  | invalid _ => .validation
  | client category _ => category

/-- Names of columns that are likely meant when a column is undefined. -/
def commonColumnNames : List String :=
  ["name", "email", "id", "userId", "user_id", "firstName", "lastName"]

private def orNone (names : List String) : String :=
  let listed := ", ".intercalate names
  if listed = "" then "none" else listed

private def undefinedText (position : Nat) (columns : List String) (before : String) : String :=
  let place := if 0 < position then s!" (parameter {position} in expression)" else ""
  let suggested := (commonColumnNames.filter columns.contains).take 3
  let suggestion :=
    if suggested.isEmpty then "" else "\nSuggested columns: " ++ ", ".intercalate suggested
  let available :=
    if columns.isEmpty then ""
    else suggestion ++ "\nAvailable columns: " ++ ", ".intercalate (columns.take 10)
      ++ (if 10 < columns.length then "..." else "")
  "Cannot use an undefined value in SQL expression" ++ place
    ++ ". A table column is probably undefined (e.g. a misspelled column name, "
    ++ "or camelCase vs snake_case)." ++ available
    ++ "\nSQL context: ..." ++ Text.takeLast 50 before

private def fieldText (name : String) (got : Option Kind) (table : String)
    (columns : List (String × String)) : String :=
  let problem :=
    match got with
    | none => s!"Field \"{name}\" in SELECT is undefined."
    | some kind =>
      s!"Field \"{name}\" in SELECT must be a Column or an Expression; got " ++ kind.short ++ "."
  let listed := orNone (columns.map fun c ↦ s!"{c.1} (column: {c.2})")
  problem ++ s!" No column of `{table}` matches this alias.\n"
    ++ s!"  - Available columns (key -> column): {listed}\n"
    ++ "  - Example: select(\x7b\"" ++ name ++ "\": " ++ table ++ ".<column>\x7d)"

private def indexText (owner got : Kind) : String :=
  match owner with
  | .text => "string indices must be integers, not '" ++ got.native ++ "'"
  | _ => owner.native ++ " indices must be integers or slices, not " ++ got.native

private def extensionText (got : Kind) : String :=
  match got with
  | .text | .tuple =>
    "can only concatenate " ++ got.native ++ " (not \"list\") to " ++ got.native
  | _ => "unsupported operand type(s) for +: '" ++ got.native ++ "' and 'list'"

private def listing : List String → String
  | [] => ""
  | [x] => x
  | [x, y] => x ++ " and " ++ y
  | names => ", ".intercalate names.dropLast ++ ", and " ++ names.getLast?.getD ""

private def arguments (n : Nat) : String :=
  " positional argument" ++ (if n = 1 then "" else "s")

private def missingText (function : String) (names : List String) : String :=
  let quoted := names.map fun name ↦ "'" ++ name ++ "'"
  function ++ "() missing " ++ Text.ofNat names.length ++ " required"
    ++ arguments names.length ++ ": " ++ listing quoted

private def countText (function : String) (places : List String) (given : Nat) : String :=
  if given < places.length then missingText function (places.drop given)
  else
    function ++ "() takes " ++ Text.ofNat places.length ++ arguments places.length ++ " but "
      ++ Text.ofNat given ++ (if given = 1 then " was" else " were") ++ " given"

private def quotedClass (kind : Kind) : String := "<class '" ++ kind.qualified ++ "'>"

/-- The wording of a failure. -/
def message : Failure → String
  | noSource => "from_() is required: the query has no root table"
  | pendingSelection => "from_() is required before a callable selection can be resolved"
  | unknownField name got table columns => fieldText name got table columns
  | notAnItem got => s!"Expected a Column or an Expression; got {got.short}"
  | undefinedLiteral position columns before => undefinedText position columns before
  | valueCount collected bound =>
    s!"Fingerprint collected {collected} values but compilation produced {bound} parameters"
  | bindingCount expected got => s!"Template expects {expected} values; got {got}"
  | tooDeep table limit =>
    s!"Relation tree under `{table}` is deeper than {limit} levels; "
      ++ "check for cyclic relation declarations"
  | nestedStrategy relation table =>
    s!"Relation `{relation}` of `{table}` sets join_strategy; "
      ++ "only the root find_many / find_first call chooses the join strategy"
  | noRelation table relation declared =>
    s!"Table `{table}` has no relation `{relation}` (declared: " ++ orNone declared ++ ")"
  | unevenRelation target fields references =>
    s!"Relation to `{target}` has {fields} fields but {references} references"
  | notARelation name table got =>
    s!"Relation `{name}` of `{table}` must be built with one() or many(); got "
      ++ quotedClass got
  | waitTimeout mutation limit =>
    "Mutation " ++ mutation.display ++ " not completed after " ++ Text.ofInt limit ++ "ms"
  | mutationFailed mutation reason =>
    "Mutation " ++ mutation.display ++ " failed: " ++ reason.display
  | appendOnly verb table =>
    s!"{verb} is blocked for append-only table `{table}`; "
      ++ "declare it with append_only=False to allow mutations"
  | noCondition verb => s!"{verb} requires a WHERE clause"
  | noAssignments => "UPDATE requires at least one column to set"
  | noSuchColumn name table => s!"`{name}` is not a column of `{table}`"
  | noSuchPrimaryKey name table => s!"Primary key `{name}` is not a column of `{table}`"
  | cacheCapacity capacity => "Cache capacity must be at least 1; got " ++ Text.ofInt capacity
  | placeholderCount places arguments =>
    s!"Template has {places} placeholders but {arguments} arguments were given"
  | noFunctionName => "Function name must not be empty"
  | finalSubquery => "FINAL does not apply to derived tables"
  | unsupportedJoin keyword => "Unsupported join type: " ++ Text.quote keyword
  | crossCondition => "CROSS JOIN does not take an ON condition"
  | noJoinCondition keyword => s!"{keyword} JOIN requires an ON condition"
  | filterBeforeTable => "Call from_() before filtering with a mapping"
  | badDirection got => "Order direction must be 'ASC' or 'DESC'; got " ++ got.inspect
  | unbound => "Query is not bound to a database; use Database.select() or Query.bind()"
  | noConnection name => s!"No connection configured with name=`{name}`"
  | notAColumn key table got =>
    s!"Column `{key}` of `{table}` must be a Column or a type string; got " ++ quotedClass got
  | rawNotText got => "Raw SQL must be a string; got " ++ quotedClass got
  | notASelection got => "select requires a mapping or a callable; got " ++ quotedClass got
  | notASource got => "from_ requires a Table or a Query; got " ++ quotedClass got
  | notACondition got => "where requires an Expression or a mapping; got " ++ quotedClass got
  | notOrderable got =>
    "order_by requires a Column, Expression or OrderBy; got " ++ quotedClass got
  | notAFloat text => "could not convert string to float: " ++ Text.quote text
  | notAnInteger base text => s!"invalid literal for int() with base {base}: " ++ Text.quote text
  | notADecimal => "[<class 'decimal.ConversionSyntax'>]"
  | notAUuid => "badly formed hexadecimal UUID string"
  | partOutOfRange part => part.message
  | jsonKey got => "keys must be str, int, float, bool or None, not " ++ got.native
  | unhashable got => "unhashable type: '" ++ got.native ++ "'"
  | notIterable got => "'" ++ got.native ++ "' object is not iterable"
  | notSubscriptable got => "'" ++ got.native ++ "' object is not subscriptable"
  | badIndex owner got => indexText owner got
  | noIndex owner => owner.native ++ " index out of range"
  | hugeIndex => "cannot fit 'int' into an index-sized integer"
  | notExtensible got => extensionText got
  | notAMapping got => "'" ++ got.native ++ "' object is not a mapping"
  | notAPair position =>
    s!"cannot convert dictionary update sequence element #{position} to a sequence"
  | pairLength position length =>
    s!"dictionary update sequence element #{position} has length {length}; 2 is required"
  | signallingKey => "Cannot hash a signaling NaN value"
  | notOrdered left right =>
    "'<' not supported between instances of '" ++ left.native ++ "' and '" ++ right.native ++ "'"
  | mixedDates => "can't compare datetime.datetime to datetime.date"
  | mixedOffsets => "can't compare offset-naive and offset-aware datetimes"
  | nanComparison => "[<class 'decimal.InvalidOperation'>]"
  | notCallable got => "'" ++ got.native ++ "' object is not callable"
  | nameNotText got => "expected string or bytes-like object, got '" ++ got.native ++ "'"
  | operandCount name places given => countText name places given
  | missingColumns kind names => missingText ("RelationHelpers." ++ kind) names
  | dateOutOfRange => "date value out of range"
  | noBody method => s!"Subclasses must implement `{method}`"
  | noColumnAttribute name => name
  | noTableAttribute table name => s!"Table `{table}` has no column `{name}`"
  | noAttribute owner name => s!"'{owner}' object has no attribute '{name}'"
  | noSchemaTable name declared =>
    s!"No table `{name}` in schema (declared: " ++ orNone declared ++ ")"
  | reservedName name => name
  | unknownClauses names => "Unknown Query attribute(s): " ++ ", ".intercalate names
  | noKey key => key.inspect
  | invalid problems => "; ".intercalate (problems.map Problem.message)
  | client _ message => message

end Failure

end Columnar
