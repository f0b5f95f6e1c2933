import ModelGateway.Query.Executable
import ModelGateway.Schema.Route

/-!
# Aggregate selections

An aggregating operation takes the caller's selection as arguments: the groups that are asked for,
each with its fields. At the root only names that begin with `_` are groups; names that begin with
`__` and fragments never count. What the caller passes as an argument wins over what the selection
says.
-/

namespace ModelGateway

namespace AggregateSelection

open Query (Selection)

/-- Whether a name is that of a field about types, not data. -/
def isMeta (name : String) : Bool :=
  Text.startsWith name "__"

/-- Whether a name counts, at the root or below. -/
def isRequested (root : Bool) (name : String) : Bool :=
  !isMeta name && (!root || Text.startsWith name "_")

/-- The value for a field, given what its own selections ask for. -/
def request (nested : Entries Json) : Json :=
  if nested.isEmpty then .bool true else .obj nested

/-- The requests of a selection set, the last one of each name. -/
def collect (root : Bool) : List Selection → Entries Json → Entries Json
  | [], out => out
  | .field _ name _ _ selections _ :: rest, out =>
    if isRequested root name then
      collect root rest (out.insert name (request (collect false selections [])))
    else collect root rest out
  | .spread _ _ :: rest, out => collect root rest out
  | .inline _ _ _ :: rest, out => collect root rest out

/-- The groups that the selection set of a root field asks for. -/
def ofSelections (selections : List Selection) : Entries Json :=
  collect true selections []

/-- The selection with the caller's arguments, which win. -/
def withArguments (selection arguments : Entries Json) : Entries Json :=
  selection.extend arguments

end AggregateSelection

/-- The arguments that the client is called with. -/
def ModelRoute.arguments (r : ModelRoute) (arguments selection : Entries Json) : Entries Json :=
  if r.operation.isAggregate then AggregateSelection.withArguments selection arguments
  else arguments

end ModelGateway
