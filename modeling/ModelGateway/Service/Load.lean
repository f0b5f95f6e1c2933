import ModelGateway.Service.Config
import ModelGateway.Settings.Environment
import ModelGateway.Settings.Toml.Reader

/-!
# Loading a configuration

A configuration is gathered from a file and from variables: the file first, variables that are
settings over it, variables with names of their own over both.
-/

namespace ModelGateway

/-- Why no configuration is available. -/
inductive LoadError where
  /-- The file is not TOML. -/
  | unreadable
  /-- A setting is of the wrong kind. -/
  | unfit
  /-- The configuration cannot be used. -/
  | invalid (fault : Config.Fault)
deriving DecidableEq, Repr

namespace LoadError

/-- The wording with the cause. How the library that reads configurations words a cause in detail is
its own. -/
def message : LoadError → String
  | .unreadable => "config build error: the file is not TOML"
  | .unfit => "config deserialize error: a setting is missing or of the wrong kind"
  | .invalid fault => fault.message

end LoadError

namespace Config

/-- All settings of a TOML file, if there is one, and of the variables. -/
def gather? (file : Option String) (env : Environment) : Option Setting := do
  let tree ←
    match file with
    | some text => Toml.read? text
    | none => some (.table [])
  let placed := tree.entries.foldl
    (fun placed (name, setting) => (SettingPath.ofText name).put setting placed) (.table [])
  return env.putAliases (env.putSettings placed)

/-- Loads the configuration of a service. The file is read as TOML, the format of the standard one;
other formats, which the extension of its name can choose, are left out. -/
def load (file : Option String) (env : Environment) : Except LoadError Config :=
  match gather? file env with
  | none => .error .unreadable
  | some tree =>
    match Config.read? Setting.format tree with
    | none => .error .unfit
    | some c =>
      let c :=
        if env.isProduction then { c with server := { c.server with production := true } } else c
      match c.fault? with
      | some fault => .error (.invalid fault)
      | none => .ok c

end Config

end ModelGateway
