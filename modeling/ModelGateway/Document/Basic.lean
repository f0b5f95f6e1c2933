import ModelGateway.Json.Basic

/-!
# Introspection documents

What an object-relational mapper says about a data model: the models and their fields, the output
types and enums of its query engine, and the names of the root fields for each operation on a model.
-/

namespace ModelGateway

/-- What a field of a model holds. -/
inductive FieldKind where
  | scalar
  | object
  | enum
  | unsupported
deriving DecidableEq, Repr

/-- A field of a model: a column, or a relation to another model. -/
structure Field where
  name : String
  kind : FieldKind
  typeName : String
  isList : Bool
  isRequired : Bool
  isUnique : Bool
  isId : Bool
  isUpdatedAt : Bool
  hasDefault : Bool
  default : Option Json
  /-- The name of the relation, if the field is one. -/
  relationName : Option String
  /-- On the owning side of a relation: the columns that hold the foreign key. -/
  fromFields : List String
  /-- On the owning side of a relation: the columns of the other model that the key refers to. -/
  toFields : List String
deriving DecidableEq

namespace Field

/-- Whether the field points at another model. -/
def isRelation (f : Field) : Bool :=
  f.relationName.isSome

/-- The name of the function that makes the default value, such as `autoincrement` or `now`. -/
def defaultFunction? (f : Field) : Option String := do
  (← (← f.default).get? "name").asString?

/-- Whether the default value is the next number of the model's counter. -/
def isAutoincrement (f : Field) : Bool :=
  f.defaultFunction? == some "autoincrement"

end Field

/-- A primary key of several fields, with a name of its own or without. -/
structure PrimaryKey where
  name : Option String
  fields : List String
deriving DecidableEq

/-- A model: one table. -/
structure Model where
  name : String
  fields : List Field
  primaryKey : Option PrimaryKey
deriving DecidableEq

/-- Where an output type is declared. -/
inductive TypeLocation where
  | scalar
  | inputObjectTypes
  | outputObjectTypes
  | enumTypes
  | fieldRefTypes
  | other
deriving DecidableEq, Repr

/-- A reference to an output type. -/
structure OutputType where
  typeName : String
  group : Option String
  location : TypeLocation
  isList : Bool
deriving DecidableEq

/-- A field of an output object type. Of its arguments only the names matter. -/
structure OutputField where
  name : String
  arguments : List String
  isNullable : Bool
  type : OutputType
deriving DecidableEq

/-- An output object type. -/
structure ObjectType where
  name : String
  fields : List OutputField
deriving DecidableEq

/-- An enum. -/
structure EnumType where
  name : String
  values : List String
deriving DecidableEq

/-- Types in two groups: those of the engine itself and those of the user's models. -/
structure TypeGroups (α : Type) where
  engine : List α
  model : List α

namespace TypeGroups

variable {α : Type}

/-- The engine's types, then those of the models. -/
def toList (groups : TypeGroups α) : List α :=
  groups.engine ++ groups.model

/-- The number of types. -/
def size (groups : TypeGroups α) : Nat :=
  groups.engine.length + groups.model.length

end TypeGroups

/-- The root field names for the operations on one model: operation ids with field names. -/
structure OperationMapping where
  model : String
  plural : Option String
  operations : Entries String

/-- An introspection document. -/
structure Document where
  models : List Model
  outputs : TypeGroups ObjectType
  enums : TypeGroups EnumType
  mappings : List OperationMapping
  /-- Operations without a model that read. -/
  otherReads : List String
  /-- Operations without a model that write. -/
  otherWrites : List String

namespace Model

/-- The field called `name`. -/
def field? (m : Model) (name : String) : Option Field :=
  m.fields.find? (·.name == name)

/-- The columns, in declaration order. -/
def scalarFields (m : Model) : List Field :=
  m.fields.filter (!·.isRelation)

/-- The relations, in declaration order. -/
def relationFields (m : Model) : List Field :=
  m.fields.filter (·.isRelation)

end Model

namespace ObjectType

/-- The field called `name`. -/
def field? (t : ObjectType) (name : String) : Option OutputField :=
  t.fields.find? (·.name == name)

end ObjectType

namespace Document

/-- The model called `name`. -/
def model? (d : Document) (name : String) : Option Model :=
  d.models.find? (·.name == name)

/-- The output object type called `name`. -/
def objectType? (d : Document) (name : String) : Option ObjectType :=
  d.outputs.toList.find? (·.name == name)

/-- The mapped operations in document order: model, operation id and root field name. -/
def operations (d : Document) : List (String × String × String) :=
  d.mappings.flatMap fun mapping =>
    mapping.operations.map fun (id, field) => (mapping.model, id, field)

/-- The operations without a model: reads, then writes. -/
def otherOperations (d : Document) : List String :=
  d.otherReads ++ d.otherWrites

end Document

end ModelGateway
