import ModelGateway.Settings.Format

/-!
# Limits of requests

How deep and how large a request may be and whether it may ask about the schema itself.
-/

namespace ModelGateway

/-- The limits that requests have to keep. -/
structure SchemaLimits where
  /-- The greatest number of fields inside one another. -/
  maxDepth : Nat
  /-- The greatest number of fields. -/
  maxComplexity : Nat
  /-- Whether the schema may be asked about itself. -/
  introspection : Bool
deriving DecidableEq, Repr

namespace SchemaLimits

/-- The limits that hold where none are given. -/
def standard : SchemaLimits where
  maxDepth := 20
  maxComplexity := 5000
  introspection := true

instance : Inhabited SchemaLimits := ⟨standard⟩

/-- The names in configuration files. -/
def partNames : List String :=
  ["max_depth", "max_complexity", "introspection"]

/-- Reads limits; what is absent has its standard value. -/
def readFrom? {τ : Type} (f : TreeFormat τ) (tree : τ) : Option SchemaLimits := do
  let parts ← f.parts? partNames tree
  return {
    maxDepth := ← Shape.optional? standard.maxDepth f.unsigned? (Shape.part parts 0)
    maxComplexity := ← Shape.optional? standard.maxComplexity f.unsigned? (Shape.part parts 1)
    introspection := ← Shape.optional? standard.introspection f.bool? (Shape.part parts 2) }

/-- Reads limits from JSON. -/
def read? : Shape.Reader SchemaLimits :=
  readFrom? TreeFormat.json

/-- What is wrong with limits, if anything is. -/
inductive Fault where
  | zeroDepth
  | zeroComplexity
deriving DecidableEq, Repr

namespace Fault

/-- The wording. -/
def message : Fault → String
  | .zeroDepth => "graphql.max_depth must be > 0"
  | .zeroComplexity => "graphql.max_complexity must be > 0"

end Fault

/-- The first thing that is wrong with the limits. -/
def fault? (l : SchemaLimits) : Option Fault :=
  if l.maxDepth = 0 then some .zeroDepth
  else if l.maxComplexity = 0 then some .zeroComplexity
  else none

end SchemaLimits

end ModelGateway
