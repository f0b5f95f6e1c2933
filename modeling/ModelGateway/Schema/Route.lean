import ModelGateway.Client.Operation
import ModelGateway.Document.Basic
import ModelGateway.Schema.Error
import ModelGateway.Text.Lower

/-!
# Routes of root fields

Every root field is answered by one call to a client: an operation on a model's delegate, or a raw
statement. `Dispatch.ofDocument` collects the routes of a document; it fails exactly when two owners
claim one field.
-/

namespace ModelGateway

/-- An operation that hands a statement to the database. -/
inductive RawOperation where
  /-- Answers rows. -/
  | query
  /-- Answers the number of affected rows. -/
  | execute
deriving DecidableEq, Repr

namespace RawOperation

/-- The name, which is that of the root field, too. -/
def name : RawOperation → String
  | .query => "queryRaw"
  | .execute => "executeRaw"

/-- The raw operation of a root field. -/
def ofField? (field : String) : Option RawOperation :=
  [query, execute].find? (·.name == field)

end RawOperation

/-- An operation on a model. -/
structure ModelRoute where
  model : String
  /-- The operation id of the document. -/
  operationId : String
  /-- The client operation that the id stands for. -/
  operation : Operation
  /-- The name of the model's delegate. -/
  delegate : String
deriving DecidableEq, Repr

namespace ModelRoute

/-- The route of an operation id on a model. -/
def ofId (model id : String) : Except GatewayError ModelRoute :=
  match Operation.ofId? id with
  | some operation => .ok { model, operationId := id, operation, delegate := Text.lowerFirst model }
  | none => .error (.unsupportedOperation model id)

end ModelRoute

/-- How a root field is answered. -/
inductive Route where
  | model (route : ModelRoute)
  | raw (operation : RawOperation)
  /-- By an error that names the operation. -/
  | unsupported (operation : String)
deriving DecidableEq, Repr

namespace Route

/-- The route of a mapped operation. -/
def ofMapping (model id : String) : Route :=
  match ModelRoute.ofId model id with
  | .ok route => .model route
  | .error _ => .unsupported id

/-- The route of an operation without a model. -/
def ofOther (name : String) : Route :=
  match RawOperation.ofField? name with
  | some operation => .raw operation
  | none => .unsupported name

/-- What a route belongs to, for the wording of a conflict. -/
def owner : Route → String
  | .model route => route.model
  | .raw operation => operation.name
  | .unsupported operation => operation

end Route

/-- Two owners claim one root field. -/
structure RouteConflict where
  field : String
  first : Route
  second : Route
deriving DecidableEq, Repr

namespace RouteConflict

/-- The gateway error. -/
def toError (c : RouteConflict) : GatewayError :=
  .duplicateRootField c.field c.first.owner c.second.owner

end RouteConflict

/-- The routes of the root fields. -/
structure Dispatch where
  routes : Entries Route

namespace Dispatch

/-- The fields that a document claims, each with its route: mapped operations, then reads and writes
without a model. -/
def claims (d : Document) : List (String × Route) :=
  d.operations.map (fun (model, id, field) => (field, Route.ofMapping model id))
    ++ d.otherOperations.map fun name => (name, Route.ofOther name)

/-- The raw operations among the fields of the two root types. -/
def rawFields (d : Document) : List (String × Route) :=
  ["Query", "Mutation"].flatMap fun root =>
    match d.objectType? root with
    | some t => t.fields.filterMap fun f =>
        (RawOperation.ofField? f.name).map fun operation => (f.name, .raw operation)
    | none => []

/-- Adds claims, of which none may be taken. -/
def addClaims (routes : Entries Route) :
    List (String × Route) → Except RouteConflict (Entries Route)
  | [] => .ok routes
  | (field, route) :: rest =>
    match routes.get? field with
    | some first => .error { field, first, second := route }
    | none => addClaims (routes.insert field route) rest

/-- Adds the routes of fields that have none. -/
def addMissing (routes : Entries Route) (more : List (String × Route)) : Entries Route :=
  more.foldl (fun acc e => if acc.contains e.1 then acc else acc.insert e.1 e.2) routes

/-- The routes of a document. -/
def ofDocument (d : Document) : Except RouteConflict Dispatch := do
  let claimed ← addClaims [] (claims d)
  return { routes := addMissing claimed (rawFields d) }

/-- The route of a root field. -/
def route (d : Dispatch) (field : String) : Except GatewayError Route :=
  match d.routes.get? field with
  | some route => .ok route
  | none => .error (.unknownOperation field)

/-- Whether a root field has a route. -/
def contains (d : Dispatch) (field : String) : Bool :=
  d.routes.contains field

/-- The number of routes. -/
def size (d : Dispatch) : Nat :=
  d.routes.length

end Dispatch

end ModelGateway
