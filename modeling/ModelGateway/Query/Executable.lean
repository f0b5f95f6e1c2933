import ModelGateway.Json.Basic

/-!
# Executable documents

What a GraphQL request text says: operations and fragments, each a tree of selections. A field knows
where it stands in the text, for the location of its errors.
-/

namespace ModelGateway.Query

/-- A place in a text, both numbers counted from one. -/
structure Position where
  line : Nat
  column : Nat
deriving DecidableEq, Repr

/-- A value written in a request. -/
inductive Value where
  | variable (name : String)
  | null
  | bool (value : Bool)
  | number (value : Number)
  | string (value : String)
  | enum (name : String)
  | list (items : List Value)
  | object (entries : List (String × Value))

instance : Inhabited Value := ⟨.null⟩

/-- Arguments in the order in which they are written; a name may repeat. -/
abbrev Arguments := List (String × Value)

/-- A directive. -/
structure Directive where
  name : String
  arguments : Arguments

/-- One selection of a selection set. -/
inductive Selection where
  | field (label : Option String) (name : String) (arguments : Arguments)
      (directives : List Directive) (selections : List Selection) (position : Position)
  | spread (fragment : String) (directives : List Directive)
  /-- An inline fragment, for objects of one type if there is a condition. -/
  | inline (condition : Option String) (directives : List Directive) (selections : List Selection)

instance : Inhabited Selection := ⟨.spread "" []⟩

namespace Selection

/-- The name under which a field is answered. -/
def responseKey (label : Option String) (name : String) : String :=
  label.getD name

end Selection

/-- A written type. -/
inductive TypeRef where
  | named (name : String)
  | list (item : TypeRef)
  | nonNull (inner : TypeRef)
deriving DecidableEq, Repr

namespace TypeRef

/-- The name inside the wrappers. -/
def typeName : TypeRef → String
  | .named name => name
  | .list item => item.typeName
  | .nonNull inner => inner.typeName

/-- Whether null is a value of the type. -/
def isNullable : TypeRef → Bool
  | .nonNull _ => false
  | _ => true

/-- The written form. -/
def text : TypeRef → String
  | .named name => name
  | .list item => "[" ++ item.text ++ "]"
  | .nonNull inner => inner.text ++ "!"

end TypeRef

/-- A variable of an operation. -/
structure VariableDefinition where
  name : String
  type : TypeRef
  directives : List Directive
  default : Option Value

/-- What an operation does. -/
inductive OperationKind where
  | query
  | mutation
  | subscription
deriving DecidableEq, Repr

/-- An operation. -/
structure Operation where
  kind : OperationKind
  variableDefinitions : List VariableDefinition
  directives : List Directive
  selections : List Selection

/-- A fragment, for objects of one type. -/
structure Fragment where
  name : String
  condition : String
  directives : List Directive
  selections : List Selection

/-- The operations of a document: a single one without a name, or some with different names. -/
inductive Operations where
  | single (operation : Operation)
  | named (operations : List (String × Operation))

namespace Operations

/-- The operations. -/
def toList : Operations → List Operation
  | .single operation => [operation]
  | .named operations => operations.map (·.2)

end Operations

/-- An executable document. -/
structure Executable where
  operations : Operations
  fragments : List Fragment

namespace Executable

/-- The fragment called `name`. -/
def fragment? (d : Executable) (name : String) : Option Fragment :=
  d.fragments.find? (·.name == name)

/-- The operation to execute: the one asked for by name, else the only one. -/
def operation? (d : Executable) : Option String → Option Operation
  | some name =>
    match d.operations with
    | .single _ => none
    | .named operations => (operations.find? (·.1 == name)).map (·.2)
  | none =>
    match d.operations with
    | .single operation => some operation
    | .named [(_, operation)] => some operation
    | .named _ => none

end Executable

end ModelGateway.Query
