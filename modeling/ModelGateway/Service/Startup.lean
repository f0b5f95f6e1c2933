import ModelGateway.Gateway.Request
import ModelGateway.Service.Config
import ModelGateway.Store.Client
import ModelGateway.Text.Blank

/-!
# Starting

A service starts from a configuration: it loads the introspection document, makes a client, which
may hold records from the start, and builds the schema. Each step may fail, and then nothing is
served. Files and programs are reached through `Surroundings`.
-/

namespace ModelGateway

/-- What a program left behind when it ended. -/
structure ProgramResult where
  output : String
  /-- What it wrote about errors. -/
  complaint : String
  status : Nat
deriving DecidableEq, Repr

/-- The files and programs that can be reached. -/
structure Surroundings where
  /-- The text of a file. -/
  fileText? : (path : String) → Option String
  /-- The result of a program, if there is one of that name. -/
  run? : (program : String) → (arguments : List String) → (directory : Option String) →
    Option ProgramResult

/-- Why a service does not start. -/
inductive StartupError where
  /-- There is not exactly one source of the document. -/
  | sourceUnclear
  | document (cause : DocumentError)
  | seedUnreachable (path : String)
  /-- The seed file is not JSON. -/
  | seedUnreadable (path : String)
  | seedRefused (cause : ClientError)
  /-- The program panics while the client is seeded. -/
  | seedPanicked
  | schema (cause : Schema.Failure)

namespace StartupError

/-- The wording, without the cause. -/
def message : StartupError → String
  | .sourceUnclear => "exactly one of introspection.path and introspection.command must be set"
  | .document _ => "failed to load the introspection document"
  | .seedUnreachable path => s!"failed to read seed file {path}"
  | .seedUnreadable path => s!"seed file {path} is not valid JSON"
  | .seedRefused _ => "failed to seed the client"
  | .seedPanicked => "panicked while the client was seeded"
  | .schema _ => "failed to synthesize the GraphQL schema"

/-- The wording of the cause, if there is one. -/
def cause? : StartupError → Option String
  | .document cause => some cause.message
  | .seedRefused cause => some cause.message
  | .schema (.error cause) => some cause.message
  | .schema (.fault fault) => fault.toError?.map (·.message)
  | .sourceUnclear | .seedUnreachable _ | .seedUnreadable _ | .seedPanicked => none

end StartupError

namespace Startup

/-! ## The document -/

/-- The error of a program that failed. -/
def failed (program : String) (result : ProgramResult) : DocumentError :=
  let status := toString result.status
  let complaint := Text.trim result.complaint
  .provider s!"`{program}` exited with exit status: {status}: {complaint}"

/-- The document that a program prints. -/
def printedDocument (program : String) : Option ProgramResult → Except DocumentError Document
  | none => .error .unreachable
  | some result =>
    if result.status = 0 then Document.load result.output else .error (failed program result)

/-- The document from its source. -/
def loadDocument (world : Surroundings) (s : DocumentSource) : Except StartupError Document :=
  match s.path, s.command with
  | some path, none =>
    match world.fileText? path with
    | none => .error (.document .unreachable)
    | some text => (Document.load text).mapError .document
  | none, some (program :: arguments) =>
    (printedDocument program (world.run? program arguments s.directory)).mapError .document
  | _, _ => .error .sourceUnclear

/-! ## The client -/

/-- The records that a file holds. -/
def loadSeed (world : Surroundings) (path : String) : Except StartupError Json :=
  match world.fileText? path with
  | none => .error (.seedUnreachable path)
  | some text =>
    match Json.read? text with
    | none => .error (.seedUnreadable path)
    | some data => .ok data

/-- The client with the records that it starts with. -/
def makeClient (world : Surroundings) (supplies : Nat → Supply) (c : ClientSettings)
    (d : Document) : Except StartupError LiveStore :=
  match c.backend, c.seedPath with
  | .memory, none => .ok (.ofDocument d)
  | .memory, some path =>
    match loadSeed world path with
    | .error e => .error e
    | .ok data =>
      match (LiveStore.ofDocument d).seed supplies data with
      | (store, .error e) => .error (if store.panicked then .seedPanicked else .seedRefused e)
      | (store, .ok _) => .ok store

/-! ## The whole -/

/-- Starts a service: its gateway, and the client's state to begin with. -/
def run (world : Surroundings) (supplies : Nat → Supply) (c : Config) :
    Except StartupError (Gateway LiveStore × LiveStore) :=
  match loadDocument world c.source with
  | .error e => .error e
  | .ok d =>
    match makeClient world supplies c.client d with
    | .error e => .error e
    | .ok store =>
      match Schema.ofDocument d c.limits with
      | .error e => .error (.schema e)
      | .ok schema => .ok ({ schema, client := LiveStore.client supplies }, store)

end Startup

end ModelGateway
