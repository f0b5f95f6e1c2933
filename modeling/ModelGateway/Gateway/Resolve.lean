import ModelGateway.Client.Basic
import ModelGateway.Gateway.Types
import ModelGateway.Query.Execution
import ModelGateway.Schema.AggregateSelection
import ModelGateway.Schema.RawResult

/-!
# Resolving fields

A root field is one call to the client, a relation of a record that has a key is a point lookup and
a read through it, and every other field is read from its parent. Calls for root fields and
relations are noted as events.
-/

namespace ModelGateway

open Query (Selection Resolved)

/-- Something that is counted. -/
inductive Event where
  /-- A root field was answered. -/
  | operation (field operation : String) (ok : Bool)
  /-- A relation was read. -/
  | traversal (model field : String) (ok : Bool)
deriving DecidableEq, Repr

/-- The state of a client together with the events so far. -/
structure Traced (σ : Type) where
  state : σ
  events : List Event

/-- A schema with the client that answers its fields. -/
structure Gateway (σ : Type) where
  schema : Schema
  client : Client σ

namespace Gateway

variable {σ : Type}

/-- The result of a client as one of the gateway. -/
def ofClient {α β : Type} (render : α → β) (answer : σ × Except ClientError α) :
    σ × Except GatewayError β :=
  (answer.1, (answer.2.mapError GatewayError.client).map render)

/-! ## Root fields -/

/-- The statement of a raw operation. -/
def statement (op : RawOperation) (arguments : Entries Json) :
    Except StatementFault (String × List Json) :=
  match arguments.get? "query" with
  | some (.str query) => (decodeParameters (arguments.get? "parameters")).map (query, ·)
  | _ => .error (.queryMissing op.name)

/-- Runs a raw operation. -/
def runRaw (client : Client σ) (op : RawOperation) (arguments : Entries Json) (s : σ) :
    σ × Except GatewayError Json :=
  match statement op arguments with
  | .error fault => (s, .error fault.toError)
  | .ok (query, parameters) =>
    match op with
    | .query => ofClient RawValue.tagged (client.queryRaw s query parameters)
    | .execute => ofClient Json.ofNat (client.executeRaw s query parameters)

/-- Answers a root field through its route. -/
def runRoute (client : Client σ) (route : Route) (arguments : Entries Json)
    (selections : List Selection) (s : σ) : σ × Except GatewayError Json :=
  match route with
  | .model r =>
    let args := r.arguments arguments (AggregateSelection.ofSelections selections)
    ofClient id (client.execute s r.delegate r.operation (.obj args))
  | .raw op => runRaw client op arguments s
  | .unsupported op => (s, .error (.client (Client.unsupported op)))

/-- The name under which the calls of a route are counted. -/
def eventName : Route → String
  | .model r => r.operation.name
  | .raw op => op.name
  | .unsupported _ => "unsupported"

/-- Whether a result is no error. -/
def isOk {ε α : Type} : Except ε α → Bool
  | .ok _ => true
  | .error _ => false

/-- Answers a root field and notes it. -/
def resolveRoot (g : Gateway σ) (field : String) (route : Route) (arguments : Entries Json)
    (selections : List Selection) (t : Traced σ) : Traced σ × Except GatewayError Resolved :=
  let (state, result) := runRoute g.client route arguments selections t.state
  ({ state, events := t.events ++ [.operation field (eventName route) (isOk result)] },
    result.map fun value => { value, isEnum := false })

/-! ## Relations -/

/-- The record that a relation is read from. -/
def recordOf (parent : Json) : Entries Json :=
  parent.asEntries?.getD []

/-- Reads a relation of a record through a point lookup. -/
def readRelation (client : Client σ) (reader : RelationReader) (parent : Entries Json)
    (field : String) (arguments : Json) (s : σ) : σ × Except ClientError Json :=
  client.relation s reader.delegate (reader.lookup parent) field arguments

/-- Reads a relation and notes it. -/
def resolveRelation (g : Gateway σ) (reader : RelationReader) (parent : Json) (field : String)
    (arguments : Entries Json) (t : Traced σ) : Traced σ × Except GatewayError Resolved :=
  let (state, result) :=
    readRelation g.client reader (recordOf parent) field (.obj arguments) t.state
  ({ state, events := t.events ++ [.traversal reader.model field (isOk result)] },
    (result.mapError GatewayError.client).map fun value => { value, isEnum := false })

/-! ## All fields -/

/-- The value of a field that its parent holds. -/
def ownValue (kind : Option TypeKind) (parent : Json) (field : String) : Resolved :=
  { value := (parent.get? field).getD .null, isEnum := kind == some .enum }

/-- The reader for a field of an object type, if it is a relation of a model that can be read. -/
def relation? (s : Schema) (object field : String) : Option RelationReader :=
  match s.catalog.object? object with
  | some o => if o.isModel then s.resolvers.relation? object field else none
  | none => none

/-- What the type of a field is declared as. -/
def fieldKind? (s : Schema) (object field : String) : Option TypeKind :=
  ((s.catalog.object? object).bind (·.field? field)).map (·.kind)

/-- Resolves a field. -/
def resolve (g : Gateway σ) (object field : String) (parent : Json) (arguments : Entries Json)
    (selections : List Selection) (t : Traced σ) : Traced σ × Except GatewayError Resolved :=
  if Schema.isRoot object then
    match g.schema.resolvers.dispatch.route field with
    | .ok route => g.resolveRoot field route arguments selections t
    | .error e => (t, .error e)
  else
    match relation? g.schema object field with
    | some reader => g.resolveRelation reader parent field arguments t
    | none => (t, .ok (ownValue (fieldKind? g.schema object field) parent field))

end Gateway

end ModelGateway
