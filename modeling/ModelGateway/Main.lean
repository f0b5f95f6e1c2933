import ModelGateway.CommandLine.Shell
import ModelGateway.Service.App
import ModelGateway.Service.Load
import ModelGateway.Service.Startup
import Std.Time.DateTime.Timestamp

/-!
# Command line

Loads a configuration, starts the service, and answers requests that come in on standard input: each
line is the body of one, and each line of standard output is the body of the answer.
-/

namespace ModelGateway.Main

/-! ## Configuration -/

/-- The configuration file where none is named. -/
def standardPath : String := "dataproxy.toml"

/-- The configuration file that arguments name. -/
def configPath? : List String → Option String
  | "--config" :: path :: _ | "-c" :: path :: _ => some path
  | _ :: rest => configPath? rest
  | [] => none

/-- The name of the variable for a setting of a part of the configuration. -/
def variableName (part setting : String) : String :=
  "DATAPROXY__" ++ part.toUpper ++ "__" ++ setting.toUpper

/-- The names of the variables that say something about the configuration. -/
def variableNames : List String :=
  let settings := (Config.standard.toJson.asEntries?.getD []).flatMap fun (part, settings) =>
    (settings.asEntries?.getD []).map fun (setting, _) => variableName part setting
  settings ++ Environment.aliases.map (·.1) ++ ["NODE_ENV"]

/-- The variables of the process. -/
def environment : IO Environment :=
  variableNames.filterMapM fun name => do
    return (← IO.getEnv name).map fun value => (name, value)

/-- The text of a file, if it can be read. -/
def fileText? (path : String) : IO (Option String) := do
  try
    return some (← IO.FS.readFile path)
  catch _ =>
    return none

/-! ## Surroundings -/

/-- The files that a configuration may lead to. -/
def filesOf (c : Config) : List String :=
  c.source.path.toList ++ c.client.seedPath.toList ++ c.source.command.getD []

/-- The files and programs that a configuration may lead to. -/
def surroundings (c : Config) : IO Surroundings := do
  let texts ← (filesOf c).filterMapM fun path => do
    return (← fileText? path).map fun text => (path, text)
  let find path := (texts.find? fun entry => entry.1 == path).map (·.2)
  return { fileText? := find, run? := fun program arguments _ => Shell.run? find program arguments }

/-- The digits of a number in base sixteen with leading zeros up to a width. -/
def hexText (width n : Nat) : String :=
  String.ofList (Time.Instant.padded width 0 |>.take (width - (Nat.toDigits 16 n).length))
    ++ String.ofList (Nat.toDigits 16 n)

/-- The number of seeds, which twelve digits in base sixteen write. -/
def seedCount : Nat := 281474976710656

/-- Values that no argument determines, given the time and a random number. -/
def supplies (seconds : Int) (seed : Nat) (call : Nat) : Supply :=
  let number n := (seed + call * 65536 + n) % seedCount
  { instant := fun n => Time.Instant.text { seconds, nanos := n, offset := 0 }
    uuid := fun n => "00000000-0000-4000-8000-" ++ hexText 12 (number n)
    cuid := fun n => "c" ++ hexText 24 (number n) }

/-! ## Service -/

/-- The headers of every request. -/
def requestHeaders (c : Config) : Headers :=
  [("authorization", "Bearer " ++ c.apiKey.getD "")]

/-- The current time in seconds. -/
def now : IO Int := do
  return (← Std.Time.Timestamp.now).toSecondsSinceUnixEpoch.val

/-- Answers the lines of standard input until it ends. A request in which a call has panicked gets
no answer. -/
partial def serve (c : Config) (schema : Schema) (seed : Nat) (s : AppState LiveStore) :
    IO Unit := do
  let line ← (← IO.getStdin).getLine
  if line.isEmpty then return
  let fresh := supplies (← now) seed
  let app := App.ofConfig c ⟨schema, LiveStore.client fresh⟩ fun n => (fresh n).uuid 0
  let request := { method := "POST", path := "/", headers := requestHeaders c, body := line }
  let (response, s) := app.respond request s
  let store := s.live.state
  if store.panicked then
    IO.eprintln "A request panicked"
    serve c schema seed { s with live := { s.live with state := store.resumed } }
  else
    let output ← IO.getStdout
    output.putStrLn response.body
    output.flush
    serve c schema seed s

/-- The wording of a failure to start with its cause. -/
def failureText (e : StartupError) : String :=
  match e.cause? with
  | some cause => s!"Server initialization failed: {e.message}: {cause}"
  | none => s!"Server initialization failed: {e.message}"

/-- Starts the service and runs it. -/
def run (c : Config) : IO UInt32 := do
  let seed ← IO.rand 0 seedCount
  match Startup.run (← surroundings c) (supplies (← now) seed) c with
  | .error e =>
    IO.eprintln (failureText e)
    return 2
  | .ok (gateway, store) =>
    serve c gateway.schema seed (.initial store)
    return 0

end ModelGateway.Main

/-- The program. -/
def main (arguments : List String) : IO UInt32 := do
  let path := (ModelGateway.Main.configPath? arguments).getD ModelGateway.Main.standardPath
  match ModelGateway.Config.load (← ModelGateway.Main.fileText? path)
      (← ModelGateway.Main.environment) with
  | .error e =>
    IO.eprintln s!"Configuration error: {e.message}"
    return 2
  | .ok c => ModelGateway.Main.run c
