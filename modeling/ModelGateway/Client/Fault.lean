import ModelGateway.Client.Error
import ModelGateway.Json.Printer

/-!
# Faults of the record store

Why the record store refuses an operation. Each cause has a kind of client error and a wording, both
given here and nowhere else. One fault is no refusal (`Fault.isPanic`): the program panics.
-/

namespace ModelGateway

/-- Why an operation on records is refused. -/
inductive Fault where
  /-- No model has this delegate. -/
  | unknownDelegate (delegate : String)
  /-- No model has this name. -/
  | unknownModel (model : String)
  /-- Seed data is no object. -/
  | seedNotObject
  /-- The seed records of a model are no list. -/
  | seedNotList (model : String)
  /-- No record matches. -/
  | noRecord (model : String)
  /-- No record matches an update. -/
  | nothingToUpdate
  /-- No record matches a deletion. -/
  | nothingToDelete
  /-- The record to connect to does not exist. -/
  | noConnectTarget (model relation : String)
  /-- Another record has the same values in these fields. -/
  | notUnique (fields : List String)
  /-- A filter is no object. -/
  | filterNotObject (filter : Json)
  /-- A filter uses a relation. -/
  | relationFilter (model field : String)
  /-- A filter names something unknown. -/
  | unknownFilter (model name : String)
  /-- A compound key is no object. -/
  | keyNotObject (key : String)
  /-- A compound key lacks a part. -/
  | keyPartMissing (key part : String)
  /-- A condition uses an unknown operator. -/
  | unknownOperator (operator : String)
  /-- An operator needs a list. -/
  | operandNotList (operator : String)
  /-- An operator needs a string. -/
  | operandNotText (operator : String)
  /-- An ordering is no object. -/
  | orderNotObject
  /-- A direction is neither `asc` nor `desc`. -/
  | unknownDirection (direction field : String)
  /-- An argument is no whole number. -/
  | notInteger (argument : String)
  /-- A selection names something unknown. -/
  | unknownSelection (model name : String)
  /-- A count is asked of something that is no list relation. -/
  | notListRelation (name : String)
  /-- A relation is read that the model does not have. -/
  | notRelation (model field : String)
  /-- No side of a relation holds its foreign key. -/
  | noForeignKey (model field : String)
  /-- The data of a write is no object. -/
  | dataNotObject
  /-- There is no data to write. -/
  | dataMissing
  /-- The data names something unknown. -/
  | unknownData (model name : String)
  /-- A required column has no value. -/
  | columnMissing (field : String)
  /-- A write through a relation is no object. -/
  | relationNotObject (field : String)
  /-- A write through the side of a relation that does not hold the key. -/
  | notOwningSide (field : String)
  /-- A connection lacks a part of the key. -/
  | connectPartMissing (part : String)
  /-- A nested write other than `connect` and `disconnect`. -/
  | nestedWrite (operation field : String)
  /-- An update of a column does not use exactly one operation. -/
  | notOneUpdate (field : String)
  /-- An update uses an unknown operation. -/
  | unknownUpdate (operation field : String)
  /-- Arithmetic on something that is no number. -/
  | notNumeric (field : String)
  /-- Arithmetic leaves the 64-bit whole numbers. -/
  | overflow (field : String)
  /-- The counter for automatic columns leaves the 64-bit whole numbers. -/
  | counterOverflow
  /-- A sum leaves the 64-bit whole numbers. -/
  | sumOverflow (field : String)
  /-- An aggregate names no fields. -/
  | aggregateWithoutFields
  /-- A grouping names no fields. -/
  | groupWithoutFields
  /-- A grouping has a condition on groups. -/
  | groupCondition
  /-- An operation that the store does not have. -/
  | unsupportedOperation (operation : String)
deriving DecidableEq

namespace Fault

/-- The kind of client error. -/
def kind : Fault → ClientError.Kind
  | .noRecord _ | .nothingToUpdate | .nothingToDelete | .noConnectTarget _ _ => .notFound
  | .notUnique _ => .uniqueConstraint
  | .relationFilter _ _ | .notOwningSide _ | .nestedWrite _ _ | .groupCondition
  | .unsupportedOperation _ => .unsupported
  | .noForeignKey _ _ | .counterOverflow => .internal
  | _ => .validation

/-- The detail of the client error. -/
def detail : Fault → String
  | .unknownDelegate delegate => s!"Unknown model delegate `{delegate}`"
  | .unknownModel model => s!"Unknown model `{model}`"
  | .seedNotObject => "Seed data must be an object keyed by model name"
  | .seedNotList model => s!"Seed data for `{model}` must be a list"
  | .noRecord model => s!"No {model} found"
  | .nothingToUpdate => "Record to update not found."
  | .nothingToDelete => "Record to delete does not exist."
  | .noConnectTarget model relation =>
    s!"No '{model}' record found for a nested connect on relation '{relation}'."
  | .notUnique fields => String.intercalate ", " fields
  | .filterNotObject filter => "Argument `where` must be an object, got " ++ filter.text
  | .relationFilter model field => s!"filtering on relation `{model}.{field}`"
  | .unknownFilter model name => s!"Unknown argument `{name}` in `where` of model `{model}`"
  | .keyNotObject key => s!"Argument `{key}` must be an object"
  | .keyPartMissing key part => s!"Argument `{key}.{part}` is missing"
  | .unknownOperator operator => s!"Unknown filter operator `{operator}`"
  | .operandNotList operator => s!"Filter `{operator}` expects a list"
  | .operandNotText operator => s!"Filter `{operator}` expects a string"
  | .orderNotObject => "Argument `orderBy` must be an object"
  | .unknownDirection direction field => s!"Invalid sort order `{direction}` for `{field}`"
  | .notInteger argument => s!"Argument `{argument}` must be an integer"
  | .unknownSelection model name =>
    s!"Unknown field `{name}` for select statement on model `{model}`"
  | .notListRelation name => s!"`{name}` is not a list relation"
  | .notRelation model field => s!"`{field}` is not a relation of model `{model}`"
  | .noForeignKey model field => s!"Relation `{model}.{field}` has no foreign key side"
  | .dataNotObject => "Argument `data` must be an object"
  | .dataMissing => "Argument `data` is missing."
  | .unknownData model name => s!"Unknown argument `{name}` in data of model `{model}`"
  | .columnMissing field => s!"Argument `{field}` is missing."
  | .relationNotObject field => s!"Relation argument `{field}` must be an object"
  | .notOwningSide field => s!"nested writes from the non-owning side of relation `{field}`"
  | .connectPartMissing part => s!"Argument `connect.{part}` is missing"
  | .nestedWrite operation field => s!"nested write `{operation}` on relation `{field}`"
  | .notOneUpdate field => s!"Update of `{field}` must use exactly one operation"
  | .unknownUpdate operation field => s!"Unknown update operation `{operation}` on `{field}`"
  | .notNumeric field => s!"Field `{field}` is not numeric"
  | .overflow field => s!"Arithmetic on `{field}` overflows"
  | .counterOverflow => "attempt to add with overflow"
  | .sumOverflow field => s!"Sum of `{field}` overflows"
  | .aggregateWithoutFields => "Aggregate selection must name the fields to aggregate"
  | .groupWithoutFields => "Argument `by` must name at least one field"
  | .groupCondition => "groupBy `having` on the in-memory client"
  | .unsupportedOperation operation => s!"{operation} on the in-memory client"

/-- Whether the program panics: the operation ends where it is, without an answer. -/
def isPanic : Fault → Bool
  | .counterOverflow => true
  | _ => false

/-- The client error. For a panic there is none; what it says then is seen by nobody. -/
def toClientError (fault : Fault) : ClientError :=
  { kind := fault.kind, detail := fault.detail }

end Fault

end ModelGateway
