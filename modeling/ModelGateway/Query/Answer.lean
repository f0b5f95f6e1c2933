import ModelGateway.Query.Executable

/-!
# Answers to requests

The data and the errors that a request is answered with. Fields answered under one name are merged:
objects name by name, lists place by place as far as they hold objects; of other values the first
stays.
-/

namespace ModelGateway.Query

/-! ## Merging -/

mutual

/-- Adds to a value what a later one under the same name has. -/
def mergeValue (old : Json) : Json → Json
  | .obj more =>
    match old with
    | .obj entries => .obj (mergeEntries entries more)
    | other => other
  | .arr more =>
    match old with
    | .arr items => .arr (mergeItems items more)
    | other => other
  | .null | .bool _ | .num _ | .str _ => old

/-- Adds entries to an object. -/
def mergeEntries (entries : List (String × Json)) : List (String × Json) → List (String × Json)
  | [] => entries
  | (name, value) :: rest =>
    let merged :=
      match Entries.get? entries name with
      | some old => mergeValue old value
      | none => value
    mergeEntries (Entries.insert entries name merged) rest

/-- Adds to the objects of a list what those of a later one have. -/
def mergeItems (items : List Json) : List Json → List Json
  | [] => items
  | new :: rest =>
    match items with
    | [] => []
    | old :: others =>
      (match old, new with
        | .obj entries, .obj more => .obj (mergeEntries entries more)
        | old, _ => old) :: mergeItems others rest

end

/-- Adds an answer under a name. -/
def addAnswer (entries : Entries Json) (name : String) (value : Json) : Entries Json :=
  mergeEntries entries [(name, value)]

/-! ## Errors -/

/-- A step of the way to a value in the data. -/
inductive PathItem where
  | key (name : String)
  | index (place : Nat)
deriving DecidableEq, Repr

/-- An error of an answer. Those of resolvers are of a type of their own. -/
inductive ResponseError (ε : Type) where
  /-- The request is not understood or not valid. -/
  | invalidRequest
  | tooComplex
  | tooDeep
  /-- A condition of a selection is no truth value. -/
  | unreadableCondition
  /-- The value at a place does not fit the type of its field. -/
  | unfitValue (path : List PathItem)
  /-- The resolver of the field at a position failed. -/
  | resolver (error : ε) (position : Position)

/-- An answer. -/
structure Response (ε : Type) where
  data : Json
  errors : List (ResponseError ε)

namespace Response

variable {ε : Type}

/-- The answer to a request that is not executed. -/
def refusal (error : ResponseError ε) : Response ε :=
  { data := .null, errors := [error] }

end Response

end ModelGateway.Query
