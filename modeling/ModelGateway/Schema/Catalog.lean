import ModelGateway.Document.Basic
import ModelGateway.Query.Executable
import ModelGateway.Schema.Error

/-!
# The type catalog

The types of the schema: fixed scalars, the enums of the document and one object type per output
type. Every argument has the untyped scalar `Any`. `TypeCatalog.ofDocument` succeeds if all names
are different, no object type is empty and every field refers to a declared type, wherever in the
document it is declared.
-/

namespace ModelGateway

/-- What the type of a field is declared as. -/
inductive TypeKind where
  | scalar
  | enum
  | object
deriving DecidableEq, Repr

/-- A field of an object type. -/
structure CatalogField where
  name : String
  /-- The names of the arguments. -/
  arguments : List String
  typeName : String
  kind : TypeKind
  isList : Bool
  isNullable : Bool
deriving DecidableEq

/-- An object type. -/
structure CatalogObject where
  name : String
  fields : List CatalogField
  /-- Whether the objects are records of a model. -/
  isModel : Bool
deriving DecidableEq

/-- The declared types of a schema. -/
structure TypeCatalog where
  enums : List EnumType
  objects : List CatalogObject
deriving DecidableEq

/-- Why the types of a document form no catalog. -/
inductive TypeFault where
  | duplicateType (name : String)
  | undeclaredType (object field type : String)
  | emptyType (object : String)
  | noQueryType
deriving DecidableEq, Repr

namespace TypeFault

/-- The wording of the cause. -/
def detail : TypeFault → String
  | .duplicateType name => s!"type `{name}` is declared more than once"
  | .undeclaredType object field type =>
    s!"field `{object}.{field}` references undeclared type `{type}`"
  | .emptyType object => s!"type `{object}` declares no fields"
  | .noQueryType => "the document declares no `Query` type"

/-- The gateway error. -/
def toError (fault : TypeFault) : GatewayError :=
  .schemaGeneration fault.detail

end TypeFault

namespace TypeCatalog

/-! ## Scalars -/

/-- The scalar of every argument. -/
def anyScalar : String := "Any"

/-- The scalars that every schema has. -/
def builtinScalars : List String :=
  ["String", "Int", "Float", "Boolean", "ID"]

/-- The other scalars, with their descriptions. -/
def customScalars : List (String × String) :=
  [(anyScalar, "Untyped argument bag, passed to the client unchanged"),
    ("DateTime", "An ISO-8601 date-time string"),
    ("Json", "Arbitrary JSON value"),
    ("BigInt", "A 64-bit integer"),
    ("Decimal", "An arbitrary precision decimal"),
    ("Bytes", "Base64-encoded binary data")]

/-- The names of all scalars. -/
def scalarNames : List String :=
  builtinScalars ++ customScalars.map (·.1)

/-! ## From a document -/

/-- The names that a document declares: enums, then object types. -/
def declaredNames (d : Document) : List String :=
  d.enums.toList.map (·.name) ++ d.outputs.toList.map (·.name)

/-- Fails at the first name that is a scalar or occurs earlier. -/
def checkNames : List String → List String → Except TypeFault Unit
  | _, [] => .ok ()
  | seen, name :: rest =>
    if name ∈ seen then .error (.duplicateType name) else checkNames (name :: seen) rest

/-- What a name is declared as. -/
def kindOf? (d : Document) (name : String) : Option TypeKind :=
  if d.outputs.toList.any (·.name == name) then some .object
  else if d.enums.toList.any (·.name == name) then some .enum
  else if scalarNames.contains name then some .scalar
  else none

/-- The field of an object type. -/
def fieldOf (d : Document) (object : String) (f : OutputField) : Except TypeFault CatalogField :=
  match kindOf? d f.type.typeName with
  | some kind =>
    .ok {
      name := f.name, arguments := f.arguments, typeName := f.type.typeName, kind
      isList := f.type.isList, isNullable := f.isNullable }
  | none => .error (.undeclaredType object f.name f.type.typeName)

/-- The object type of an output type. -/
def objectOf (d : Document) (t : ObjectType) : Except TypeFault CatalogObject := do
  let fields ← t.fields.mapM (fieldOf d t.name)
  if fields.isEmpty then throw (.emptyType t.name)
  return { name := t.name, fields, isModel := (d.model? t.name).isSome }

/-- The types of a document. -/
def ofDocument (d : Document) : Except TypeFault TypeCatalog := do
  checkNames scalarNames (declaredNames d)
  return { enums := d.enums.toList, objects := ← d.outputs.toList.mapM (objectOf d) }

/-! ## Looking up -/

/-- The object type called `name`. -/
def object? (c : TypeCatalog) (name : String) : Option CatalogObject :=
  c.objects.find? (·.name == name)

/-- The enum called `name`. -/
def enum? (c : TypeCatalog) (name : String) : Option EnumType :=
  c.enums.find? (·.name == name)

end TypeCatalog

namespace CatalogObject

/-- The field called `name`. -/
def field? (o : CatalogObject) (name : String) : Option CatalogField :=
  o.fields.find? (·.name == name)

end CatalogObject

namespace CatalogField

/-- The type with its wrappers. The items of a list may be null. -/
def typeRef (f : CatalogField) : Query.TypeRef :=
  let bare : Query.TypeRef := if f.isList then .list (.named f.typeName) else .named f.typeName
  if f.isNullable then bare else .nonNull bare

end CatalogField

end ModelGateway
