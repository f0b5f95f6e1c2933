import ModelGateway.Gateway.Resolve
import ModelGateway.Query.Reader

/-!
# Requests

A request text with its variables, read, checked against the schema and its limits, and executed. A
request that is refused calls no client.
-/

namespace ModelGateway

open Query (Executable Executor Response ResponseError PathItem)

/-- A request. -/
structure Request where
  query : String
  /-- Which of several operations to execute. -/
  operationName : Option String
  /-- The values given for its variables. -/
  bindings : Entries Json

namespace Request

/-- Whether a tree has all the parts that it needs by its form: only an object may leave parts out.
-/
def isComplete : Source → Bool
  | .arr _ items => items.length == 4
  | _ => true

/-- Reads a request from JSON. Variables that are no object count as none. -/
def read? : Shape.Reader Request := fun tree => do
  guard (isComplete tree)
  let parts ← Shape.parts? ["query", "operationName", "variables", "extensions"] tree
  let query ← Shape.required? Shape.string? (Shape.part parts 0)
  let operationName ← Shape.optional? none (Shape.nullable? Shape.string?) (Shape.part parts 1)
  let bindings ← Shape.optional? none Shape.nullableValue? (Shape.part parts 2)
  let _ ← Shape.optional? none Shape.nullableValue? (Shape.part parts 3)
  return { query, operationName, bindings := (bindings.bind Json.asEntries?).getD [] }

end Request

namespace Gateway

variable {σ : Type}

/-- The values of the variables of an operation: given, else the default, else null. -/
def variableValues (o : Query.Operation) (given : Entries Json) : Entries Json :=
  o.variableDefinitions.map fun v =>
    (v.name,
      match given.get? v.name with
      | some value => value
      | none => ((v.default.bind (·.fill? [])).getD .null))

/-- The selections of the operations whose kind has a root type. -/
def rootedSelections (types : Query.TypeSystem) (d : Executable) : List (List Query.Selection) :=
  (d.operations.toList.filter fun o => (types.root? o.kind).isSome).map (·.selections)

/-- The number of fields of all operations. -/
def complexity (types : Query.TypeSystem) (d : Executable) : Nat :=
  Query.Selection.complexities (rootedSelections types d).flatten

/-- The greatest number of fields inside one another in any operation. -/
def depth (types : Query.TypeSystem) (d : Executable) : Nat :=
  ((rootedSelections types d).map Query.Selection.depths).foldl max 0

/-- Checks an expanded request against the limits. -/
def checkLimits (s : Schema) (expanded : Executable) : Except (ResponseError GatewayError) Unit :=
  if s.limits.maxComplexity < complexity s.typeSystem expanded then .error .tooComplex
  else if s.limits.maxDepth < depth s.typeSystem expanded then .error .tooDeep
  else .ok ()

/-- The operation to execute, without spreads, if the request is within the limits and valid. The
limits hold for requests that are not valid, too. -/
def prepare (s : Schema) (r : Request) : Except (ResponseError GatewayError) Query.Operation := do
  let some d := Executable.read? r.query | throw .invalidRequest
  let some expanded := d.expand | throw .invalidRequest
  checkLimits s expanded
  if !d.isValid expanded s.typeSystem r.bindings then throw .invalidRequest
  match expanded.operation? r.operationName with
  | some operation => return operation
  | none => throw .invalidRequest

/-- The executor of an operation. -/
def executor (g : Gateway σ) (o : Query.Operation) (given : Entries Json) :
    Executor (Traced σ) GatewayError :=
  { types := g.schema.typeSystem, bindings := variableValues o given, resolve := g.resolve }

/-- Answers a request. -/
def answer (g : Gateway σ) (r : Request) (t : Traced σ) : Response GatewayError × Traced σ :=
  match prepare g.schema r with
  | .error e => (.refusal e, t)
  | .ok operation =>
    let x := g.executor operation r.bindings
    match x.types.root? operation.kind with
    | none => (.refusal .invalidRequest, t)
    | some root => x.run root operation.selections t

/-! ## Answers as JSON -/

/-- The wording of an error. -/
def errorMessage : ResponseError GatewayError → String
  | .invalidRequest => "The request is not valid."
  | .tooComplex => "Query is too complex."
  | .tooDeep => "Query is nested too deep."
  | .unreadableCondition => "A condition is no truth value."
  | .unfitValue _ => "A value does not fit the type of its field."
  | .resolver error _ => error.message

/-- A step of a path. -/
def pathItemJson : PathItem → Json
  | .key name => .str name
  | .index place => .ofNat place

/-- An error: its wording and what is known about its place and cause. -/
def errorJson (e : ResponseError GatewayError) : Json :=
  let message := ("message", Json.str (errorMessage e))
  match e with
  | .unfitValue path => .obj [message, ("path", .arr (path.map pathItemJson))]
  | .resolver error position =>
    .obj [message,
      ("locations",
        .arr [.obj [("line", .ofNat position.line), ("column", .ofNat position.column)]]),
      ("extensions", .obj error.extensions)]
  | _ => .obj [message]

/-- The body of an answer: errors are left out if there are none. -/
def responseJson (r : Response GatewayError) : Json :=
  .obj (("data", r.data) ::
    if r.errors.isEmpty then [] else [("errors", .arr (r.errors.map errorJson))])

end Gateway

end ModelGateway
