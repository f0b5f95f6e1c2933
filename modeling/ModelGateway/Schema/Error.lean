import ModelGateway.Client.Error
import ModelGateway.Document.Error
import ModelGateway.Json.Basic

/-!
# Gateway errors

What can go wrong while a schema is made out of a document and while a request is answered. The
errors of the first kind keep the gateway from starting; those of the second are answered to the
caller with a code, and with a category if a client raised them.
-/

namespace ModelGateway

/-- An error of the gateway. -/
inductive GatewayError where
  /-- The types of the document do not form a schema. -/
  | schemaGeneration (detail : String)
  /-- Two owners claim one root field. -/
  | duplicateRootField (field first second : String)
  /-- An operation id stands for no client operation. -/
  | unsupportedOperation (model operation : String)
  /-- A root field has no route. -/
  | unknownOperation (field : String)
  /-- The introspection document is unusable. -/
  | invalidDocument (detail : String)
  /-- An argument of a request cannot be used. -/
  | invalidArgument (detail : String)
  /-- The executor refuses the schema. -/
  | schemaRejected (detail : String)
  /-- A client reported an error. -/
  | client (error : ClientError)
deriving DecidableEq, Repr

namespace GatewayError

/-- The wording; that of a client error is the client's own. -/
def message : GatewayError → String
  | .schemaGeneration detail => s!"Schema generation failed: {detail}"
  | .duplicateRootField field first second =>
    s!"Root field `{field}` is mapped by both `{first}` and `{second}`"
  | .unsupportedOperation model operation =>
    s!"Operation `{operation}` of model `{model}` has no client method"
  | .unknownOperation field => s!"No operation is mapped to root field `{field}`"
  | .invalidDocument detail => s!"Invalid introspection document: {detail}"
  | .invalidArgument detail => s!"Invalid argument: {detail}"
  | .schemaRejected detail => s!"Failed to build GraphQL schema: {detail}"
  | .client error => error.message

/-- The code that callers match on. -/
def code : GatewayError → String
  | .schemaGeneration _ => "SCHEMA_GENERATION_FAILED"
  | .duplicateRootField _ _ _ => "DUPLICATE_ROOT_FIELD"
  | .unsupportedOperation _ _ => "UNSUPPORTED_OPERATION"
  | .unknownOperation _ => "UNKNOWN_OPERATION"
  | .invalidDocument _ => "INVALID_DOCUMENT"
  | .invalidArgument _ => "INVALID_ARGUMENT"
  | .schemaRejected _ => "SCHEMA_BUILD_FAILED"
  | .client error => error.code

/-- Whether the error can only arise while the schema is made. -/
def isStartup : GatewayError → Bool
  | .invalidArgument _ | .client _ => false
  | _ => true

/-- The category, which client errors have. -/
def category? : GatewayError → Option ClientError.Category
  | .client error => some error.category
  | _ => none

/-- What an answer says about the error besides its wording, sorted by name. -/
def extensions (e : GatewayError) : Entries Json :=
  match e.category? with
  | some category => [("category", .str category.name), ("code", .str e.code)]
  | none => [("code", .str e.code)]

/-- A document error as a gateway error. -/
def ofDocument (e : DocumentError) : GatewayError :=
  .invalidDocument e.message

end GatewayError

end ModelGateway
