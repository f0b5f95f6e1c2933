/-!
# What can be wrong with a document

The causes for which an introspection document is not available, and their wording.
-/

namespace ModelGateway

/-- Why no document is available. -/
inductive DocumentError where
  /-- The text is no document. -/
  | unreadable
  /-- The file or the program cannot be reached. -/
  | unreachable
  /-- The sections of the document contradict each other. -/
  | invalid (detail : String)
  /-- The program that prints the document failed. -/
  | provider (detail : String)
deriving DecidableEq, Repr

namespace DocumentError

/-- The document declares two models of one name. -/
def duplicateModel (name : String) : DocumentError :=
  .invalid s!"model `{name}` is declared more than once"

/-- An operation mapping is for a model that is not declared. -/
def undeclaredModel (name : String) : DocumentError :=
  .invalid s!"operation mapping references undeclared model `{name}`"

/-- The wording. -/
def message : DocumentError → String
  | .unreadable => "Failed to parse introspection document"
  | .unreachable => "I/O error"
  | .invalid detail => s!"Invalid introspection document: {detail}"
  | .provider detail => s!"Introspection provider failed: {detail}"

end DocumentError

end ModelGateway
