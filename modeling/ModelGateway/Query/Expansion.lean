import ModelGateway.Query.Executable

/-!
# Expansion of fragments

An operation with every fragment spread replaced by the fragment's selections, as an inline
fragment. What is nested deeper than `Executable.maxNesting` has no expansion; in particular
fragments that contain themselves have none. Validation, limits and execution are about expanded
operations.
-/

namespace ModelGateway.Query

namespace Executable

/-- The greatest number of selection sets below that of an operation. -/
def maxNesting : Nat := 32

mutual

/-- A selection without spreads, with selection sets at most `depth` deep below the one that it is
part of. A spread of an unknown fragment stays. -/
def expandSelection (d : Executable) (depth : Nat) : Selection → Option Selection
  | .field label name arguments directives selections position =>
    match selections with
    | [] => some (.field label name arguments directives [] position)
    | first :: rest =>
      match depth with
      | 0 => none
      | below + 1 =>
        (d.expandSelections below (first :: rest)).map fun expanded =>
          .field label name arguments directives expanded position
  | .inline condition directives selections =>
    match depth with
    | 0 => none
    | below + 1 => (d.expandSelections below selections).map (.inline condition directives)
  | .spread fragment directives =>
    match d.fragment? fragment with
    | none => some (.spread fragment directives)
    | some f =>
      match depth with
      | 0 => none
      | below + 1 =>
        (d.expandSelections below f.selections).map (.inline (some f.condition) directives)
termination_by s => (depth, sizeOf s)

/-- Selections without spreads. -/
def expandSelections (d : Executable) (depth : Nat) : List Selection → Option (List Selection)
  | [] => some []
  | s :: rest => do return (← d.expandSelection depth s) :: (← d.expandSelections depth rest)
termination_by ss => (depth, sizeOf ss)

end

/-- An operation without spreads. -/
def expandOperation (d : Executable) (operation : Operation) : Option Operation :=
  (d.expandSelections maxNesting operation.selections).map fun selections =>
    { operation with selections }

/-- All operations without spreads. -/
def expand (d : Executable) : Option Executable :=
  match d.operations with
  | .single operation =>
    (d.expandOperation operation).map fun o => { d with operations := .single o }
  | .named operations =>
    (operations.mapM fun e => (d.expandOperation e.2).map fun o => (e.1, o)).map
      fun named => { d with operations := .named named }

end Executable

/-! ## Size -/

namespace Selection

mutual

/-- The number of fields, those that ask for the name of the type apart. -/
def complexity : Selection → Nat
  | .field _ name _ _ selections _ =>
    (if name = "__typename" then 0 else 1) + complexities selections
  | .inline _ _ selections => complexities selections
  | .spread _ _ => 0

/-- The number of fields of some selections. -/
def complexities : List Selection → Nat
  | [] => 0
  | s :: rest => s.complexity + complexities rest

end

mutual

/-- The greatest number of fields inside one another. -/
def depth : Selection → Nat
  | .field _ _ _ _ selections _ => depths selections + 1
  | .inline _ _ selections => depths selections
  | .spread _ _ => 0

/-- The depth of some selections. -/
def depths : List Selection → Nat
  | [] => 0
  | s :: rest => max s.depth (depths rest)

end

mutual

/-- The names of the fragments that are spread. -/
def spreads : Selection → List String
  | .field _ _ _ _ selections _ => spreadsOf selections
  | .inline _ _ selections => spreadsOf selections
  | .spread fragment _ => [fragment]

/-- The names of the fragments that some selections spread. -/
def spreadsOf : List Selection → List String
  | [] => []
  | s :: rest => s.spreads ++ spreadsOf rest

end

end Selection

end ModelGateway.Query
