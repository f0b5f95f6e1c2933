import ModelGateway.Query.Executable

/-!
# Type systems

What a request may ask for: named types with their fields and the fields' arguments, a root type for
queries and perhaps one for mutations. `TypeSystem.isValue` says which written values a type admits.
-/

namespace ModelGateway.Query

/-- An argument of a field or of a directive. -/
structure InputDefinition where
  name : String
  type : TypeRef
  /-- The value, as it is written, of an argument that is not given. -/
  default : Option String

/-- A field of an object type. -/
structure FieldDefinition where
  name : String
  arguments : List InputDefinition
  type : TypeRef

/-- A named type. -/
inductive NamedType where
  | scalar (description : Option String)
  | enum (values : List String)
  | object (fields : List FieldDefinition)

/-- The types that requests are checked against. -/
structure TypeSystem where
  types : Entries NamedType
  queryType : String
  mutationType : Option String

namespace InputDefinition

/-- Whether the argument has to be given. -/
def isRequired (i : InputDefinition) : Bool :=
  !i.type.isNullable && i.default.isNone

end InputDefinition

namespace NamedType

/-- The fields of an object type. -/
def fields? : NamedType → Option (List FieldDefinition)
  | .object fields => some fields
  | .scalar _ | .enum _ => none

/-- Whether values of the type have fields. -/
def isComposite (t : NamedType) : Bool :=
  t.fields?.isSome

end NamedType

namespace TypeSystem

/-- The type called `name`. -/
def type? (ts : TypeSystem) (name : String) : Option NamedType :=
  ts.types.get? name

/-- The fields of the object type called `name`. -/
def fields? (ts : TypeSystem) (name : String) : Option (List FieldDefinition) :=
  (ts.type? name).bind (·.fields?)

/-- A field of an object type. -/
def field? (ts : TypeSystem) (object field : String) : Option FieldDefinition :=
  (ts.fields? object).bind (·.find? (·.name == field))

/-- Whether objects of a type can be selected from. -/
def isComposite (ts : TypeSystem) (name : String) : Bool :=
  (ts.fields? name).isSome

/-- Whether a type can be that of a variable. -/
def isInput (ts : TypeSystem) (name : String) : Bool :=
  match ts.type? name with
  | some t => !t.isComposite
  | none => false

/-- The root type of an operation. -/
def root? (ts : TypeSystem) : OperationKind → Option String
  | .query => some ts.queryType
  | .mutation => ts.mutationType
  | .subscription => none

/-! ## Values -/

/-- Whether a value is one of a scalar; only the basic scalars refuse any. -/
def isScalarValue (scalar : String) (value : Json) : Bool :=
  match scalar, value with
  | "Int", .num n => n.toInt64?.isSome
  | "Float", .num _ => true
  | "Boolean", .bool _ => true
  | "String", .str _ => true
  | "ID", .str _ => true
  | "ID", .num n => n.toInt64?.isSome
  | "Int", _ | "Float", _ | "Boolean", _ | "String", _ | "ID", _ => false
  | _, _ => true

/-- Whether a value that is not null is one of a named type. -/
def isNamedValue (ts : TypeSystem) (name : String) (value : Json) : Bool :=
  match ts.type? name with
  | some (.scalar _) => isScalarValue name value
  | some (.enum values) =>
    match value with
    | .str s => values.contains s
    | _ => false
  | some (.object _) => true
  | none => false

/-- Whether a value is one of a type. A single value is a list of one, too. -/
def isValue (ts : TypeSystem) : TypeRef → Json → Bool
  | .nonNull inner, value => !value.isNull && ts.isValue inner value
  | .list item, .arr items => items.all fun v => ts.isValue item v
  | .list _, .null => true
  | .list item, value => ts.isValue item value
  | .named _, .null => true
  | .named name, value => ts.isNamedValue name value

end TypeSystem

end ModelGateway.Query
