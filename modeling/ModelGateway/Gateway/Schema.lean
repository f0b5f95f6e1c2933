import ModelGateway.Document.Validate
import ModelGateway.Schema.Catalog
import ModelGateway.Schema.Limits
import ModelGateway.Schema.Relation
import ModelGateway.Schema.Route

/-!
# Gateway schemas

The types of a document together with what answers their fields: a route for each root field, a
reader for the relations of each model that has a key. `Schema.build` accepts them if every root
field has a route and no object type has two fields of one name.
-/

namespace ModelGateway

/-- What answers the fields of a document's types. -/
structure Resolvers where
  dispatch : Dispatch
  /-- The relation readers by model name. -/
  readers : Entries RelationReader

namespace Resolvers

/-- The resolvers of a valid document. -/
def ofDocument (d : Document) : Except GatewayError Resolvers :=
  match d.validate with
  | .error e => .error (.ofDocument e)
  | .ok () =>
    match Dispatch.ofDocument d with
    | .error conflict => .error conflict.toError
    | .ok dispatch =>
      .ok { dispatch, readers := Entries.ofList (d.models.filterMap fun m =>
        (RelationReader.ofModel? m).map (m.name, ·)) }

/-- The reader for the relations of a model. -/
def reader? (r : Resolvers) (model : String) : Option RelationReader :=
  r.readers.get? model

/-- The reader that answers a field of a model, if the field is a relation that can be read. -/
def relation? (r : Resolvers) (model field : String) : Option RelationReader :=
  (r.reader? model).filter (·.handles field)

end Resolvers

/-- A schema that can execute requests. -/
structure Schema where
  catalog : TypeCatalog
  resolvers : Resolvers
  limits : SchemaLimits

/-- Why catalog and resolvers form no schema. -/
inductive SchemaFault where
  /-- There is no type of queries. -/
  | noQueryType
  /-- A root field has no route. -/
  | unrouted (field : String)
  /-- An object type has two fields of one name. -/
  | repeatedField (object field : String)
  /-- A field or an argument has a name that is reserved for introspection. -/
  | reservedName (name : String)
deriving DecidableEq, Repr

namespace SchemaFault

/-- The gateway error. A repeated field has none: no schema may come to that. -/
def toError? : SchemaFault → Option GatewayError
  | .noQueryType => some TypeFault.noQueryType.toError
  | .unrouted field => some (.unknownOperation field)
  | .repeatedField _ _ => none
  | .reservedName name => some (.schemaRejected s!"name `{name}` is reserved")

end SchemaFault

namespace Schema

/-- The name of the type of queries. -/
def queryType : String := "Query"

/-- The name of the type of mutations. -/
def mutationType : String := "Mutation"

/-- Whether an object type holds root fields. -/
def isRoot (name : String) : Bool :=
  name == queryType || name == mutationType

/-- Fails at the first field without a route, if it needs one, or with the name of an earlier one.
-/
def checkFields (dispatch : Dispatch) (object : String) :
    List String → List String → Except SchemaFault Unit
  | _, [] => .ok ()
  | seen, name :: rest =>
    if isRoot object && !dispatch.contains name then .error (.unrouted name)
    else if name ∈ seen then .error (.repeatedField object name)
    else checkFields dispatch object (name :: seen) rest

/-- Fails at the first object type whose fields fail. -/
def checkObjects (dispatch : Dispatch) : List CatalogObject → Except SchemaFault Unit
  | [] => .ok ()
  | o :: rest =>
    match checkFields dispatch o.name [] (o.fields.map (·.name)) with
    | .error e => .error e
    | .ok () => checkObjects dispatch rest

/-- The names of the fields of an object type and of their arguments. -/
def fieldNames (o : CatalogObject) : List String :=
  o.fields.flatMap fun f => f.name :: f.arguments

/-- The first name that is reserved for introspection. -/
def reserved? (c : TypeCatalog) : Option String :=
  (c.objects.flatMap fieldNames).find? (Text.startsWith · "__")

/-- The schema of a catalog and the resolvers of the same document. -/
def build (catalog : TypeCatalog) (resolvers : Resolvers) (limits : SchemaLimits) :
    Except SchemaFault Schema :=
  if (catalog.object? queryType).isNone then .error .noQueryType
  else
    match checkObjects resolvers.dispatch catalog.objects with
    | .error e => .error e
    | .ok () =>
      match reserved? catalog with
      | some name => .error (.reservedName name)
      | none => .ok { catalog, resolvers, limits }

/-- Why a document has no schema. -/
inductive Failure where
  | error (error : GatewayError)
  | fault (fault : SchemaFault)

/-- The schema of a document. -/
def ofDocument (d : Document) (limits : SchemaLimits) : Except Failure Schema :=
  match TypeCatalog.ofDocument d with
  | .error fault => .error (.error fault.toError)
  | .ok catalog =>
    match Resolvers.ofDocument d with
    | .error e => .error (.error e)
    | .ok resolvers => (build catalog resolvers limits).mapError .fault

end Schema

end ModelGateway
