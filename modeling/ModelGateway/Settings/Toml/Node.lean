import ModelGateway.Settings.Setting

/-!
# Tables of a TOML file

A file says piece by piece what its tables hold. How a table came to be decides what may be added to
it later: one with a header of its own is not opened again by dotted keys, one that dotted keys made
gets no header, and a value is never added to.
-/

namespace ModelGateway.Toml

/-- How a table came to be. -/
inductive TableOrigin where
  /-- By a header of its own, or as the whole file. -/
  | header
  /-- On the way to the table of another header. -/
  | path
  /-- By a dotted key. -/
  | dotted
deriving DecidableEq, Repr

/-- A part of a file under construction. -/
inductive Node where
  | value (setting : Setting)
  | table (origin : TableOrigin) (entries : List (String × Node))
  /-- The tables of one repeated header. -/
  | tables (items : List Node)

namespace Node

instance : Inhabited Node := ⟨.table .header []⟩

/-- A table without entries. -/
def empty (origin : TableOrigin) : Node := .table origin []

/-- Changes the last item of a list. -/
def changeLast (change : Node → Option Node) : List Node → Option (List Node)
  | [] => none
  | [last] => (change last).map ([·])
  | x :: y :: rest => (changeLast change (y :: rest)).map (x :: ·)

/-- Changes what a name leads into: a table, or the last table of a repeated header. Dotted keys
lead into neither a table with a header nor a repeated one. -/
def enter (dotted : Bool) (change : Node → Option Node) : Node → Option Node
  | .table origin entries =>
    if dotted && origin == .header then none else change (.table origin entries)
  | .tables items => if dotted then none else (changeLast change items).map .tables
  | .value _ => none

/-- Changes the table that some names lead to; tables that are missing are made. -/
def within (dotted : Bool) : List String → (Node → Option Node) → Node → Option Node
  | [], change, node => change node
  | name :: rest, change, .table origin entries => do
    let child := (Entries.get? entries name).getD (empty (if dotted then .dotted else .path))
    let child ← child.enter dotted (within dotted rest change)
    return .table origin (Entries.insert entries name child)
  | _ :: _, _, _ => none

/-- Adds a value to a table, which has to be one made by dotted keys exactly if the key is dotted.
-/
def addValue (isDotted : Bool) (name : String) (setting : Setting) : Node → Option Node
  | .table origin entries =>
    if Entries.contains entries name || (origin == .dotted) != isDotted then none
    else some (.table origin (Entries.insert entries name (.value setting)))
  | _ => none

/-- Gives a value to a key, which may be dotted. -/
def assign (key : List String) (setting : Setting) (node : Node) : Option Node := do
  let name ← key.getLast?
  let path := key.dropLast
  node.within true path (addValue (!path.isEmpty) name setting)

/-- Opens a table: a new one, or one that other headers led through. -/
def openHere (name : String) : Node → Option Node
  | .table origin entries =>
    match Entries.get? entries name with
    | none => some (.table origin (Entries.insert entries name (empty .header)))
    | some (.table .path inner) =>
      some (.table origin (Entries.insert entries name (.table .header inner)))
    | some _ => none
  | _ => none

/-- Opens one more table of a repeated header. -/
def repeatHere (name : String) : Node → Option Node
  | .table origin entries =>
    match Entries.get? entries name with
    | none => some (.table origin (Entries.insert entries name (.tables [empty .header])))
    | some (.tables items) =>
      some (.table origin (Entries.insert entries name (.tables (items ++ [empty .header]))))
    | some _ => none
  | _ => none

/-- Follows a header. -/
def header (repeated : Bool) (key : List String) (node : Node) : Option Node := do
  let name ← key.getLast?
  node.within false key.dropLast (if repeated then repeatHere name else openHere name)

mutual

/-- The setting that a finished part of a file is. -/
def toSetting : Node → Setting
  | .value setting => setting
  | .table _ entries => .table (toEntries entries)
  | .tables items => .list (toItems items)

/-- The settings of the entries of a table. -/
def toEntries : List (String × Node) → List (String × Setting)
  | [] => []
  | (name, node) :: rest => (name, node.toSetting) :: toEntries rest

/-- The settings of repeated tables. -/
def toItems : List Node → List Setting
  | [] => []
  | node :: rest => node.toSetting :: toItems rest

end

end Node

end ModelGateway.Toml
