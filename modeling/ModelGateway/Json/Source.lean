import ModelGateway.Json.Basic

/-!
# JSON as written

The tree that a JSON text spells, before any decision about it: a name may repeat, a number may be
out of range, an escape may be half a character, lists and objects may be nested at any depth. A
reader of typed data may skip such parts (`Json.Shape`); a value has none of them
(`Source.toJson?`).
-/

namespace ModelGateway

/-- A JSON text as a tree. A number or a text is none if no value corresponds to what is written; a
list or an object knows how many lists and objects are open where it stands, itself included. -/
inductive Source where
  | null
  | bool (value : Bool)
  | num (value : Option Number)
  | str (value : Option String)
  | arr (level : Nat) (items : List Source)
  | obj (level : Nat) (entries : List (Option String × Source))

namespace Source

instance : Inhabited Source := ⟨.null⟩

/-- The greatest number of lists and objects that a value may have open at once. -/
def maxLevel : Nat := 127

mutual

/-- The value of a tree. Of a repeated name the last value counts, at the place of the first. -/
def toJson? : Source → Option Json
  | .null => some .null
  | .bool b => some (.bool b)
  | .num n => n.map .num
  | .str s => s.map .str
  | .arr level items => if level ≤ maxLevel then (toJsonItems? items).map .arr else none
  | .obj level entries =>
    if level ≤ maxLevel then (toJsonEntries? entries).map fun pairs => .obj (Entries.ofList pairs)
    else none

/-- The values of items. -/
def toJsonItems? : List Source → Option (List Json)
  | [] => some []
  | x :: xs => do return (← toJson? x) :: (← toJsonItems? xs)

/-- The values of entries. -/
def toJsonEntries? : List (Option String × Source) → Option (List (String × Json))
  | [] => some []
  | (name, x) :: xs => do return (← name, ← toJson? x) :: (← toJsonEntries? xs)

end

mutual

/-- The tree of a value. -/
def ofJson : Json → Source
  | .null => .null
  | .bool b => .bool b
  | .num n => .num (some n)
  | .str s => .str (some s)
  | .arr items => .arr 0 (ofJsonItems items)
  | .obj entries => .obj 0 (ofJsonEntries entries)

/-- The trees of items. -/
def ofJsonItems : List Json → List Source
  | [] => []
  | x :: xs => ofJson x :: ofJsonItems xs

/-- The trees of entries. -/
def ofJsonEntries : List (String × Json) → List (Option String × Source)
  | [] => []
  | (name, x) :: xs => (some name, ofJson x) :: ofJsonEntries xs

end

end Source

end ModelGateway
