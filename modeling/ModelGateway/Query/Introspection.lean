import ModelGateway.Query.TypeSystem

/-!
# Introspection

A type system as data of a type system of its own: what `__schema` and `__type` answer. Only types
that the root types lead to are visible.
-/

namespace ModelGateway.Query

/-! ## The types of the answers -/

namespace Introspection

/-- A type without null. -/
def always (name : String) : TypeRef := .nonNull (.named name)

/-- A type with null. -/
def perhaps (name : String) : TypeRef := .named name

/-- A list without null, of items without null. -/
def manyAlways (name : String) : TypeRef := .nonNull (.list (always name))

/-- A list with null, of items without null. -/
def manyPerhaps (name : String) : TypeRef := .list (always name)

/-- A field without arguments. -/
def plain (name : String) (type : TypeRef) : FieldDefinition :=
  { name, arguments := [], type }

/-- A field that can leave out what is deprecated. -/
def withDeprecated (name : String) (type : TypeRef) : FieldDefinition :=
  { name, arguments := [⟨"includeDeprecated", always "Boolean", some "false"⟩], type }

/-- What fields, arguments and enum values say about their deprecation. -/
def deprecation : List FieldDefinition :=
  [plain "isDeprecated" (always "Boolean"), plain "deprecationReason" (perhaps "String")]

/-- The object types of the answers. -/
def objects : List (String × List FieldDefinition) :=
  [("__Schema", [plain "description" (perhaps "String"), plain "types" (manyAlways "__Type"),
      plain "queryType" (always "__Type"), plain "mutationType" (perhaps "__Type"),
      plain "subscriptionType" (perhaps "__Type"), plain "directives" (manyAlways "__Directive")]),
    ("__Type", [plain "kind" (always "__TypeKind"), plain "name" (perhaps "String"),
      plain "description" (perhaps "String"), withDeprecated "fields" (manyPerhaps "__Field"),
      plain "interfaces" (manyPerhaps "__Type"), plain "possibleTypes" (manyPerhaps "__Type"),
      withDeprecated "enumValues" (manyPerhaps "__EnumValue"),
      withDeprecated "inputFields" (manyPerhaps "__InputValue"), plain "ofType" (perhaps "__Type"),
      plain "specifiedByURL" (perhaps "String"), plain "isOneOf" (perhaps "Boolean")]),
    ("__Field", [plain "name" (always "String"), plain "description" (perhaps "String"),
      withDeprecated "args" (manyAlways "__InputValue"), plain "type" (always "__Type")]
        ++ deprecation),
    ("__InputValue", [plain "name" (always "String"), plain "description" (perhaps "String"),
      plain "type" (always "__Type"), plain "defaultValue" (perhaps "String")] ++ deprecation),
    ("__EnumValue", [plain "name" (always "String"), plain "description" (perhaps "String")]
      ++ deprecation),
    ("__Directive", [plain "name" (always "String"), plain "description" (perhaps "String"),
      plain "locations" (manyAlways "__DirectiveLocation"),
      withDeprecated "args" (manyAlways "__InputValue"), plain "isRepeatable" (always "Boolean")])]

/-- The kinds of types. -/
def typeKinds : List String :=
  ["SCALAR", "OBJECT", "INTERFACE", "UNION", "ENUM", "INPUT_OBJECT", "LIST", "NON_NULL"]

/-- The places of directives. -/
def directiveLocations : List String :=
  ["QUERY", "MUTATION", "SUBSCRIPTION", "FIELD", "FRAGMENT_DEFINITION", "FRAGMENT_SPREAD",
    "INLINE_FRAGMENT", "VARIABLE_DEFINITION", "SCHEMA", "SCALAR", "OBJECT", "FIELD_DEFINITION",
    "ARGUMENT_DEFINITION", "INTERFACE", "UNION", "ENUM", "ENUM_VALUE", "INPUT_OBJECT",
    "INPUT_FIELD_DEFINITION"]

/-- The types of the answers. -/
def types : Entries NamedType :=
  objects.map (fun (name, fields) => (name, .object fields))
    ++ [("__TypeKind", .enum typeKinds), ("__DirectiveLocation", .enum directiveLocations)]

/-- The fields that a query may begin with. -/
def rootFields : List FieldDefinition :=
  [plain "__schema" (always "__Schema"),
    { name := "__type", arguments := [⟨"name", always "String", none⟩], type := perhaps "__Type" }]

/-- Adds the root fields to the type of queries. -/
def addRootFields (queryType : String) : String × NamedType → String × NamedType
  | (name, .object fields) =>
    (name, .object (if name = queryType then fields ++ rootFields else fields))
  | other => other

/-- A type system that can be asked about itself. -/
def extend (ts : TypeSystem) : TypeSystem :=
  { ts with types := ts.types.map (addRootFields ts.queryType) ++ types }

end Introspection

/-! ## Visible types -/

namespace TypeSystem

/-- The types that a type refers to. -/
def references (ts : TypeSystem) (name : String) : List String :=
  match ts.fields? name with
  | none => []
  | some fields =>
    fields.flatMap fun f => f.type.typeName :: f.arguments.map (·.type.typeName)

/-- Adds what is reachable from some names, in at most as many rounds as there are types. -/
def reach (ts : TypeSystem) : Nat → List String → List String → List String
  | 0, seen, _ => seen
  | _ + 1, seen, [] => seen
  | rounds + 1, seen, names =>
    let new := names.eraseDups.filter (!seen.contains ·)
    ts.reach rounds (seen ++ new) (new.flatMap ts.references)

/-- The types that the root types lead to. -/
def visible (ts : TypeSystem) : List String :=
  ts.reach (ts.types.length + 1) []
    (["Boolean", "String", ts.queryType] ++ ts.mutationType.toList)

/-- Puts a name in its place among sorted names. -/
def insertSorted (name : String) : List String → List String
  | [] => [name]
  | other :: rest => if name < other then name :: other :: rest else other :: insertSorted name rest

/-- The visible types in the order of their names. -/
def visibleSorted (ts : TypeSystem) : List String :=
  let seen := ts.visible
  (ts.types.names.filter (seen.contains ·)).foldl (fun acc name => insertSorted name acc) []

end TypeSystem

/-! ## Answers -/

/-- A directive that requests may use or that a schema may carry. -/
structure DirectiveDefinition where
  name : String
  description : String
  locations : List String
  arguments : List InputDefinition

namespace DirectiveDefinition

/-- The directives in the order of their names. -/
def all : List DirectiveDefinition :=
  [{ name := "deprecated"
     description := "Marks an element of a GraphQL schema as no longer supported."
     locations :=
       ["FIELD_DEFINITION", "ARGUMENT_DEFINITION", "INPUT_FIELD_DEFINITION", "ENUM_VALUE"]
     arguments := [⟨"reason", .named "String", some "\"No longer supported\""⟩] },
    { name := "include"
      description :=
        "Directs the executor to include this field or fragment only when the `if` argument is true."
      locations := ["FIELD", "FRAGMENT_SPREAD", "INLINE_FRAGMENT"]
      arguments := [⟨"if", .nonNull (.named "Boolean"), none⟩] },
    { name := "oneOf"
      description := "Indicates that an Input Object is a OneOf Input Object (and thus requires exactly one of its field be provided)"
      locations := ["INPUT_OBJECT"]
      arguments := [] },
    { name := "skip"
      description :=
        "Directs the executor to skip this field or fragment when the `if` argument is true."
      locations := ["FIELD", "FRAGMENT_SPREAD", "INLINE_FRAGMENT"]
      arguments := [⟨"if", .nonNull (.named "Boolean"), none⟩] },
    { name := "specifiedBy"
      description :=
        "Provides a scalar specification URL for specifying the behavior of custom scalar types."
      locations := ["SCALAR"]
      arguments := [⟨"url", .nonNull (.named "String"), none⟩] }]

end DirectiveDefinition

/-- Something that introspection answers fields of. -/
inductive MetaNode where
  | schema
  | type (ref : TypeRef)
  | field (definition : FieldDefinition)
  | input (definition : InputDefinition)
  | enumValue (name : String)
  | directive (definition : DirectiveDefinition)

/-- The value of a field of such a thing. -/
inductive MetaValue where
  | leaf (value : Json)
  | node (node : MetaNode)
  | nodes (nodes : List MetaNode)

namespace MetaNode

/-- The name of the type. -/
def typeName : MetaNode → String
  | .schema => "__Schema"
  | .type _ => "__Type"
  | .field _ => "__Field"
  | .input _ => "__InputValue"
  | .enumValue _ => "__EnumValue"
  | .directive _ => "__Directive"

/-- Null. -/
def absent : MetaValue := .leaf .null

/-- A text. -/
def leafText (s : String) : MetaValue := .leaf (.str s)

/-- A text or null. -/
def leafText? (s : Option String) : MetaValue := .leaf ((s.map Json.str).getD .null)

/-- A named type. -/
def named (name : String) : MetaNode := .type (.named name)

/-- A field of the schema. -/
def schemaValue (ts : TypeSystem) : String → MetaValue
  | "types" => .nodes (ts.visibleSorted.map named)
  | "queryType" => .node (named ts.queryType)
  | "mutationType" =>
    match ts.mutationType with
    | some name => .node (named name)
    | none => absent
  | "directives" => .nodes (DirectiveDefinition.all.map .directive)
  | _ => absent

/-- The word for the kind of a type. -/
def kindWord (ts : TypeSystem) : TypeRef → String
  | .nonNull _ => "NON_NULL"
  | .list _ => "LIST"
  | .named name =>
    match ts.type? name with
    | some (.object _) => "OBJECT"
    | some (.enum _) => "ENUM"
    | _ => "SCALAR"

/-- A field of a named type. -/
def namedTypeValue (ts : TypeSystem) (name : String) (field : String) : MetaValue :=
  match field, ts.type? name with
  | "name", _ => leafText name
  | "description", some (.scalar description) => leafText? description
  | "fields", some (.object fields) =>
    .nodes ((fields.filter fun f => !"__".toList.isPrefixOf f.name.toList).map .field)
  | "interfaces", some (.object _) => .nodes []
  | "enumValues", some (.enum values) => .nodes (values.map .enumValue)
  | _, _ => absent

/-- A field of a type. -/
def typeValue (ts : TypeSystem) (ref : TypeRef) (field : String) : MetaValue :=
  if field = "kind" then leafText (kindWord ts ref)
  else
    match ref with
    | .named name => namedTypeValue ts name field
    | .list inner | .nonNull inner => if field = "ofType" then .node (.type inner) else absent

/-- What nothing deprecated says about itself. -/
def notDeprecated : String → MetaValue
  | "isDeprecated" => .leaf (.bool false)
  | _ => absent

/-- The value of a field. -/
def value (ts : TypeSystem) (field : String) : MetaNode → MetaValue
  | .schema => schemaValue ts field
  | .type ref => typeValue ts ref field
  | .field definition =>
    match field with
    | "name" => leafText definition.name
    | "args" => .nodes (definition.arguments.map .input)
    | "type" => .node (.type definition.type)
    | other => notDeprecated other
  | .input definition =>
    match field with
    | "name" => leafText definition.name
    | "type" => .node (.type definition.type)
    | "defaultValue" => leafText? definition.default
    | other => notDeprecated other
  | .enumValue name => if field = "name" then leafText name else notDeprecated field
  | .directive definition =>
    match field with
    | "name" => leafText definition.name
    | "description" => leafText definition.description
    | "locations" => .leaf (.arr (definition.locations.map .str))
    | "args" => .nodes (definition.arguments.map .input)
    | "isRepeatable" => .leaf (.bool false)
    | _ => absent

end MetaNode

end ModelGateway.Query
