import ModelGateway.Settings.Setting

/-!
# Paths to settings

A path such as `server.port` or `introspection.command[0]` leads to a place in a tree. Putting a
setting there makes tables and lists of whatever is in the way (`SettingPath.put`); a table is put
by putting each of its settings (`Setting.merge`).
-/

namespace ModelGateway

/-- A step from a setting to one of its parts. -/
inductive SettingStep where
  | key (name : String)
  /-- A place in a list, counted from its end if it is negative. -/
  | place (index : Int)
deriving DecidableEq, Repr

/-- A name at the top of a tree with the steps from there. -/
structure SettingPath where
  root : String
  steps : List SettingStep
deriving DecidableEq, Repr

namespace Setting

/-- The tables' view of a setting: one that is no table has no entries. -/
def entries : Setting → List (String × Setting)
  | .table entries => entries
  | _ => []

/-- The items of a setting: one that is no list has none. -/
def items (s : Setting) : List Setting :=
  s.toItems?.getD []

/-- Changes the setting under a name. -/
def atKey (name : String) (change : Setting → Setting) (s : Setting) : Setting :=
  .table (Entries.insert s.entries name (change ((Entries.get? s.entries name).getD .null)))

/-- Changes the item at a place; nulls fill the places that a list is short of. -/
def atPlace (index : Int) (change : Setting → Setting) (s : Setting) : Setting :=
  let items := s.items
  if 0 ≤ index then
    let padded := items ++ List.replicate (index.toNat + 1 - items.length) .null
    .list (padded.modify index.toNat change)
  else
    let fromEnd := index.natAbs
    let padded := List.replicate (fromEnd - items.length) .null ++ items
    .list (padded.modify (items.length - fromEnd) change)

/-- Changes the setting that some steps lead to. -/
def along : List SettingStep → (Setting → Setting) → Setting → Setting
  | [], change => change
  | .key name :: rest, change => atKey name (along rest change)
  | .place index :: rest, change => atPlace index (along rest change)

mutual

/-- Puts a setting over another: a table over a table entry by entry, anything else in its stead. -/
def merge (present : Setting) : Setting → Setting
  | .table entries => mergeEntries (if present.isNull then .table [] else present) entries
  | incoming => incoming

/-- Puts entries over a setting. -/
def mergeEntries (present : Setting) : List (String × Setting) → Setting
  | [] => present
  | (name, incoming) :: rest =>
    mergeEntries (present.atKey name fun old => old.merge incoming) rest

end

end Setting

namespace SettingPath

/-! ## Reading -/

/-- The characters of names in paths. -/
def isNameChar (c : Char) : Bool :=
  c.isAlphanum || c == '_' || c == '-'

/-- Reads a name. -/
def readName? (cs : List Char) : Option (String × List Char) :=
  match cs.takeWhile isNameChar with
  | [] => none
  | name => some (String.ofList name, cs.dropWhile isNameChar)

/-- Reads a place and the bracket after it. -/
def readPlace? (cs : List Char) : Option (Int × List Char) :=
  match cs.takeWhile (· != ']'), cs.dropWhile (· != ']') with
  | '+' :: _, _ => none
  | index, ']' :: rest => (Setting.readInt? index).map (·, rest)
  | _, _ => none

/-- Reads steps up to the end of the text. -/
def readSteps? : Nat → List Char → Option (List SettingStep)
  | _, [] => some []
  | 0, _ => none
  | fuel + 1, '.' :: rest => do
    let (name, rest) ← readName? rest
    return .key name :: (← readSteps? fuel rest)
  | fuel + 1, '[' :: rest => do
    let (index, rest) ← readPlace? rest
    return .place index :: (← readSteps? fuel rest)
  | _ + 1, _ => none

/-- Reads a path. -/
def read? (s : String) : Option SettingPath := do
  let (root, rest) ← readName? s.toList
  return { root, steps := ← readSteps? rest.length rest }

/-- The path that a text stands for: itself as a name, if it reads as no path. -/
def ofText (s : String) : SettingPath :=
  (read? s).getD { root := s, steps := [] }

/-! ## Use -/

/-- Puts a setting where the path leads. -/
def put (p : SettingPath) (incoming : Setting) (tree : Setting) : Setting :=
  Setting.along (.key p.root :: p.steps) (·.merge incoming) tree

end SettingPath

end ModelGateway
