import ModelGateway.Json.Basic
import ModelGateway.Schema.Limits
import ModelGateway.Service.Address
import ModelGateway.Text.Lower

/-!
# Configuration

What a gateway service is told before it starts, in sections: where it listens, the key that callers
present, where the introspection document comes from, which client answers, the limits of requests,
the log level and the metrics. Whatever is absent has a standard value. `Config.fault?` is the first
thing that keeps a configuration from being used.
-/

namespace ModelGateway

/-! ## Sections -/

/-- Where the service listens and how much it accepts. -/
structure ServerSettings where
  host : String
  port : UInt16
  /-- The greatest size of a request body in bytes. -/
  bodyLimit : Nat
  /-- Whether response bodies are kept out of the log. -/
  production : Bool
deriving DecidableEq, Repr

/-- Where the introspection document comes from. -/
structure DocumentSource where
  /-- A file that holds the document. -/
  path : Option String
  /-- A program with its arguments that prints the document. -/
  command : Option (List String)
  /-- The directory that the program runs in. -/
  directory : Option String
deriving DecidableEq, Repr

/-- The kinds of clients. -/
inductive Backend where
  /-- Records kept in memory. -/
  | memory
deriving DecidableEq, Repr

/-- Which client answers. -/
structure ClientSettings where
  backend : Backend
  /-- A file of records to start with. -/
  seedPath : Option String
deriving DecidableEq, Repr

/-- Whether and where metrics are served. -/
structure MetricsSettings where
  enabled : Bool
  port : UInt16
deriving DecidableEq, Repr

/-- A configuration. -/
structure Config where
  server : ServerSettings
  /-- The key that callers present. -/
  apiKey : Option String
  source : DocumentSource
  client : ClientSettings
  limits : SchemaLimits
  logLevel : String
  metrics : MetricsSettings
deriving DecidableEq, Repr

/-! ## Standard values -/

namespace ServerSettings

/-- All interfaces, port 3000, bodies up to 4 MiB. -/
def standard : ServerSettings where
  host := "0.0.0.0"
  port := 3000
  bodyLimit := 4 * 1024 * 1024
  production := false

end ServerSettings

namespace DocumentSource

/-- No source. -/
def standard : DocumentSource where
  path := none
  command := none
  directory := none

end DocumentSource

namespace ClientSettings

/-- Records in memory, none to start with. -/
def standard : ClientSettings where
  backend := .memory
  seedPath := none

end ClientSettings

namespace MetricsSettings

/-- No metrics. -/
def standard : MetricsSettings where
  enabled := false
  port := 9090

end MetricsSettings

namespace Config

/-- The log level where none is given. -/
def standardLevel : String := "info"

/-- The configuration that holds where nothing is given; it lacks a key and a document. -/
def standard : Config where
  server := .standard
  apiKey := none
  source := .standard
  client := .standard
  limits := .standard
  logLevel := standardLevel
  metrics := .standard

/-! ## Reading -/

variable {τ : Type}

/-- A port. -/
def port? (f : TreeFormat τ) (tree : τ) : Option UInt16 :=
  (f.natBelow? 65536 tree).map Nat.toUInt16

/-- An optional text. -/
def text? (f : TreeFormat τ) : τ → Option (Option String) :=
  f.nullable? f.string?

/-- The section `server`. -/
def server? (f : TreeFormat τ) (tree : τ) : Option ServerSettings := do
  let parts ← f.parts? ["host", "port", "body_limit_bytes", "production"] tree
  let standard := ServerSettings.standard
  return {
    host := ← Shape.optional? standard.host f.string? (Shape.part parts 0)
    port := ← Shape.optional? standard.port (port? f) (Shape.part parts 1)
    bodyLimit := ← Shape.optional? standard.bodyLimit f.unsigned? (Shape.part parts 2)
    production := ← Shape.optional? standard.production f.bool? (Shape.part parts 3) }

/-- The section `auth`, which holds the key. -/
def key? (f : TreeFormat τ) (tree : τ) : Option (Option String) := do
  let parts ← f.parts? ["api_key"] tree
  Shape.optional? none (text? f) (Shape.part parts 0)

/-- The section `introspection`. -/
def source? (f : TreeFormat τ) (tree : τ) : Option DocumentSource := do
  let parts ← f.parts? ["path", "command", "current_dir"] tree
  return {
    path := ← Shape.optional? none (text? f) (Shape.part parts 0)
    command := ← Shape.optional? none (f.nullable? (f.list? f.string?)) (Shape.part parts 1)
    directory := ← Shape.optional? none (text? f) (Shape.part parts 2) }

/-- The kind of client that a word names. -/
def backend? (f : TreeFormat τ) (tree : τ) : Option Backend :=
  match f.word? tree with
  | some "memory" => some .memory
  | _ => none

/-- The section `client`. -/
def client? (f : TreeFormat τ) (tree : τ) : Option ClientSettings := do
  let parts ← f.parts? ["backend", "seed_path"] tree
  return {
    backend := ← Shape.optional? ClientSettings.standard.backend (backend? f) (Shape.part parts 0)
    seedPath := ← Shape.optional? none (text? f) (Shape.part parts 1) }

/-- The section `logging`, which holds the level. -/
def level? (f : TreeFormat τ) (tree : τ) : Option String := do
  let parts ← f.parts? ["level"] tree
  Shape.optional? standardLevel f.string? (Shape.part parts 0)

/-- The section `metrics`. -/
def metrics? (f : TreeFormat τ) (tree : τ) : Option MetricsSettings := do
  let parts ← f.parts? ["enabled", "port"] tree
  let standard := MetricsSettings.standard
  return {
    enabled := ← Shape.optional? standard.enabled f.bool? (Shape.part parts 0)
    port := ← Shape.optional? standard.port (port? f) (Shape.part parts 1) }

/-- The names of the sections. -/
def sectionNames : List String :=
  ["server", "auth", "introspection", "client", "graphql", "logging", "metrics"]

/-- Reads a configuration. -/
def read? (f : TreeFormat τ) (tree : τ) : Option Config := do
  let parts ← f.parts? sectionNames tree
  return {
    server := ← Shape.optional? .standard (server? f) (Shape.part parts 0)
    apiKey := ← Shape.optional? none (key? f) (Shape.part parts 1)
    source := ← Shape.optional? .standard (source? f) (Shape.part parts 2)
    client := ← Shape.optional? .standard (client? f) (Shape.part parts 3)
    limits := ← Shape.optional? .standard (SchemaLimits.readFrom? f) (Shape.part parts 4)
    logLevel := ← Shape.optional? standardLevel (level? f) (Shape.part parts 5)
    metrics := ← Shape.optional? .standard (metrics? f) (Shape.part parts 6) }

/-! ## Writing -/

/-- A text or null. -/
def textJson (text : Option String) : Json :=
  (text.map Json.str).getD .null

/-- A port as JSON. -/
def portJson (port : UInt16) : Json := .ofNat port.toNat

/-- The name of a kind of client. -/
def backendName : Backend → String
  | .memory => "memory"

/-- The configuration as JSON, with all its sections. -/
def toJson (c : Config) : Json :=
  .obj [
    ("server", .obj [("host", .str c.server.host), ("port", portJson c.server.port),
      ("body_limit_bytes", .ofNat c.server.bodyLimit), ("production", .bool c.server.production)]),
    ("auth", .obj [("api_key", textJson c.apiKey)]),
    ("introspection", .obj [("path", textJson c.source.path),
      ("command", (c.source.command.map fun words => Json.arr (words.map .str)).getD .null),
      ("current_dir", textJson c.source.directory)]),
    ("client", .obj [("backend", .str (backendName c.client.backend)),
      ("seed_path", textJson c.client.seedPath)]),
    ("graphql", .obj [("max_depth", .ofNat c.limits.maxDepth),
      ("max_complexity", .ofNat c.limits.maxComplexity),
        ("introspection", .bool c.limits.introspection)]),
    ("logging", .obj [("level", .str c.logLevel)]),
    ("metrics", .obj [("enabled", .bool c.metrics.enabled), ("port", portJson c.metrics.port)])]

/-! ## Addresses -/

/-- Where the service listens. -/
def address (c : Config) : SocketAddress := .ofHost c.server.host c.server.port

/-- Where metrics are served. -/
def metricsAddress (c : Config) : SocketAddress := .ofHost c.server.host c.metrics.port

/-! ## Checking -/

/-- Why a configuration cannot be used. -/
inductive Fault where
  | portZero
  | bodyLimitZero
  | keyMissing
  | sourceMissing
  | sourcesExclusive
  | commandEmpty
  | levelUnknown
  | metricsPortZero
  | metricsPortTaken
  | limits (fault : SchemaLimits.Fault)
deriving DecidableEq, Repr

/-- The log levels. -/
def levels : List String := ["trace", "debug", "info", "warn", "error", "off"]

namespace Fault

/-- The levels in quotes, as a list. -/
def levelList : String :=
  "[" ++ String.intercalate ", " (levels.map fun l => "\"" ++ l ++ "\"") ++ "]"

/-- The wording. -/
def message : Fault → String
  | .portZero => "server.port must be > 0"
  | .bodyLimitZero => "server.body_limit_bytes must be > 0"
  | .keyMissing => "auth.api_key is required (or set DATA_PROXY_API_KEY)"
  | .sourceMissing => "introspection.path or introspection.command is required"
  | .sourcesExclusive => "introspection.path and introspection.command are exclusive"
  | .commandEmpty => "introspection.command must name a program"
  | .levelUnknown => "logging.level must be one of " ++ levelList
  | .metricsPortZero => "metrics.port must be > 0"
  | .metricsPortTaken => "metrics.port must differ from server.port"
  | .limits fault => "graphql config error: " ++ fault.message

end Fault

/-- What is wrong with the source of the document. -/
def sourceFault? (s : DocumentSource) : Option Fault :=
  match s.path, s.command with
  | none, none => some .sourceMissing
  | some _, some _ => some .sourcesExclusive
  | none, some [] => some .commandEmpty
  | none, some (_ :: _) | some _, none => none

/-- What is wrong with the metrics of a service that listens on a port. -/
def metricsFault? (taken : UInt16) (m : MetricsSettings) : Option Fault :=
  if !m.enabled then none
  else if m.port = 0 then some .metricsPortZero
  else if m.port = taken then some .metricsPortTaken
  else none

/-- The first thing that is wrong with a configuration. -/
def fault? (c : Config) : Option Fault :=
  if c.server.port = 0 then some .portZero
  else if c.server.bodyLimit = 0 then some .bodyLimitZero
  else if (c.apiKey.getD "").isEmpty then some .keyMissing
  else
    (sourceFault? c.source)
      <|> (if Text.lowerAscii c.logLevel ∈ levels then none else some .levelUnknown)
      <|> (metricsFault? c.server.port c.metrics)
      <|> (c.limits.fault?.map .limits)

end Config

end ModelGateway
