import ModelGateway.Json.Source

/-!
# Reading typed data out of JSON

Readers from trees to typed values. A structure is an object, of which unknown names are skipped and
a known name must not repeat, or a list of its parts in order. The parts that are absent are the
concern of the reader of each part (`Shape.required?`, `Shape.optional?`).
-/

namespace ModelGateway.Shape

/-- A reader of one typed value. -/
abbrev Reader (α : Type) := Source → Option α

/-- Any value. -/
def value? : Reader Json := Source.toJson?

/-- A string. -/
def string? : Reader String
  | .str s => s
  | _ => none

/-- A truth value. -/
def bool? : Reader Bool
  | .bool b => some b
  | _ => none

/-- An unsigned whole number below `bound`. -/
def natBelow? (bound : Nat) : Reader Nat
  | .num (some n) => n.toNat?.bind fun k => if k < bound then some k else none
  | _ => none

/-- A list. -/
def list? {α : Type} (item : Reader α) : Reader (List α)
  | .arr _ items => items.mapM item
  | _ => none

/-- Null or a value. -/
def nullable? {α : Type} (some? : Reader α) : Reader (Option α)
  | .null => some none
  | tree => (some? tree).map some

/-- Null or any value. -/
def nullableValue? : Reader (Option Json) :=
  nullable? value?

/-- One of some words: a string, or an object that maps the word to null. -/
def word? {α : Type} (meaning : String → Option α) : Reader α
  | .str (some s) => meaning s
  | .obj _ [(some s, .null)] => meaning s
  | _ => none

/-! ## Structures -/

/-- The trees given under a name. -/
def occurrences (name : String) (entries : List (Option String × Source)) : List Source :=
  entries.filterMap fun e => if e.1 = some name then some e.2 else none

/-- The part under a name that may not repeat. -/
def single? (entries : List (Option String × Source)) (name : String) : Option (Option Source) :=
  match occurrences name entries with
  | [] => some none
  | [tree] => some (some tree)
  | _ => none

/-- The known parts of an object. -/
def named? (names : List String) (entries : List (Option String × Source)) :
    Option (List (Option Source)) :=
  if entries.all (·.1.isSome) then names.mapM (single? entries) else none

/-- The known parts of a structure, those absent as none. -/
def parts? (names : List String) : Reader (List (Option Source))
  | .obj _ entries => named? names entries
  | .arr _ items =>
    if items.length ≤ names.length then
      some (items.map some ++ List.replicate (names.length - items.length) none)
    else none
  | _ => none

/-- The part at a place. -/
def part {τ : Type} (parts : List (Option τ)) (i : Nat) : Option τ :=
  (parts[i]?).join

/-- A part that must be there. -/
def required? {τ α : Type} (read : τ → Option α) : Option τ → Option α
  | some tree => read tree
  | none => none

/-- A part that has a value when it is absent. -/
def optional? {τ α : Type} (absent : α) (read : τ → Option α) : Option τ → Option α
  | some tree => read tree
  | none => some absent

end ModelGateway.Shape
