import ModelGateway.Document.Decode
import ModelGateway.Document.Error

/-!
# Valid documents

A document is valid if no two models share a name and every operation mapping is for a declared
model. `Document.load` reads and validates.
-/

namespace ModelGateway.Document

/-- The first name of a list that occurs earlier in it. -/
def firstRepeated? : List String → List String → Option String
  | _, [] => none
  | seen, name :: rest => if name ∈ seen then some name else firstRepeated? (name :: seen) rest

/-- The names of the models. -/
def modelNames (d : Document) : List String :=
  d.models.map (·.name)

/-- The first thing that makes a document invalid. -/
def fault? (d : Document) : Option DocumentError :=
  match firstRepeated? [] d.modelNames with
  | some name => some (.duplicateModel name)
  | none =>
    match d.mappings.find? fun mapping => mapping.model ∉ d.modelNames with
    | some mapping => some (.undeclaredModel mapping.model)
    | none => none

/-- Fails for an invalid document. -/
def validate (d : Document) : Except DocumentError Unit :=
  match d.fault? with
  | some e => .error e
  | none => .ok ()

/-- Reads a valid document from its tree. -/
def ofSource (tree : Source) : Except DocumentError Document :=
  match Document.read? tree with
  | none => .error .unreadable
  | some d =>
    match d.validate with
    | .ok () => .ok d
    | .error e => .error e

/-- Reads a valid document from its text. -/
def load (text : String) : Except DocumentError Document :=
  match Source.read? text with
  | none => .error .unreadable
  | some tree => ofSource tree

end ModelGateway.Document
