import ModelGateway.Settings.Path

/-!
# Settings from variables

A variable whose name starts with a marker is a setting: the rest of its name, in lower case and
with double underscores for points, is its path. Some variables with names of their own stand for
one setting each.
-/

namespace ModelGateway

/-- The variables of a process with their values. -/
abbrev Environment := List (String × String)

namespace Environment

/-- How the names of variables that are settings start, in lower case. -/
def marker : List Char := "dataproxy__".toList

/-- Replaces double underscores by points. -/
def pointed : List Char → List Char
  | '_' :: '_' :: rest => '.' :: pointed rest
  | c :: rest => c :: pointed rest
  | [] => []

/-- The path that a variable stands for, if it is a setting. -/
def path? (name : String) : Option SettingPath :=
  let cs := (Text.lower name).toList
  if marker.isPrefixOf cs then
    some (SettingPath.ofText (String.ofList (pointed (cs.drop marker.length))))
  else none

/-- Puts the variables that are settings into a tree. -/
def putSettings (env : Environment) (tree : Setting) : Setting :=
  env.foldl
    (fun tree (name, value) =>
      match path? name with
      | some path => path.put (.ofVariable value) tree
      | none => tree) tree

/-- The value of a variable. -/
def get? (env : Environment) (name : String) : Option String :=
  (env.find? fun entry => entry.1 == name).map (·.2)

/-- The variables that stand for one setting each, with the path of it. -/
def aliases : List (String × SettingPath) := [
  ("DATA_PROXY_API_KEY", ⟨"auth", [.key "api_key"]⟩),
  ("PORT", ⟨"server", [.key "port"]⟩),
  ("ENABLE_PROMETHEUS_METRICS", ⟨"metrics", [.key "enabled"]⟩),
  ("PROMETHEUS_METRICS_PORT", ⟨"metrics", [.key "port"]⟩)]

/-- Puts the settings that have variables of their own into a tree, as texts; empty ones do not
count. -/
def putAliases (env : Environment) (tree : Setting) : Setting :=
  aliases.foldl
    (fun tree (name, path) =>
      match env.get? name with
      | none | some "" => tree
      | some value => path.put (.text value) tree) tree

/-- Whether the process says that it is one of production. -/
def isProduction (env : Environment) : Bool :=
  env.get? "NODE_ENV" == some "production"

end Environment

end ModelGateway
