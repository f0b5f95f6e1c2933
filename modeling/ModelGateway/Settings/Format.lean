import ModelGateway.Json.Shape

/-!
# Formats of settings

A configuration is read from a tree, and how a tree becomes a typed value depends on the notation
that it was written in. A `TreeFormat` says how; what a configuration consists of is said once, for
every format.
-/

namespace ModelGateway

/-- How typed values are read from the trees of a notation. -/
structure TreeFormat (τ : Type) where
  isNull : τ → Bool
  bool? : τ → Option Bool
  /-- A whole number of 64 bits without a sign. -/
  unsigned? : τ → Option Nat
  string? : τ → Option String
  items? : τ → Option (List τ)
  /-- The word that names one of several alternatives. -/
  word? : τ → Option String
  /-- The parts of a structure under the given names, those absent as none. -/
  parts? : List String → τ → Option (List (Option τ))

namespace TreeFormat

/-- Whether a JSON tree is null. -/
def jsonIsNull : Source → Bool
  | .null => true
  | _ => false

/-- The items of a JSON list. -/
def jsonItems? : Source → Option (List Source)
  | .arr _ items => some items
  | _ => none

/-- JSON: no kind of value stands for another. -/
def json : TreeFormat Source where
  isNull := jsonIsNull
  bool? := Shape.bool?
  unsigned? := Shape.natBelow? wordCount
  string? := Shape.string?
  items? := jsonItems?
  word? := Shape.word? some
  parts? := Shape.parts?

variable {τ α : Type}

/-- An unsigned whole number below `bound`. -/
def natBelow? (f : TreeFormat τ) (bound : Nat) (tree : τ) : Option Nat :=
  (f.unsigned? tree).filter (· < bound)

/-- A list. -/
def list? (f : TreeFormat τ) (item : τ → Option α) (tree : τ) : Option (List α) :=
  (f.items? tree).bind (·.mapM item)

/-- Null or a value. -/
def nullable? (f : TreeFormat τ) (read : τ → Option α) (tree : τ) : Option (Option α) :=
  if f.isNull tree then some none else (read tree).map some

end TreeFormat

end ModelGateway
