import ModelGateway.Settings.Toml.Node
import ModelGateway.Settings.Toml.Quoted
import ModelGateway.Settings.Toml.Scalar

/-!
# Reading TOML

A file is a list of statements, each on lines of its own: a header, which says what table comes
next, or a key with a value. `Toml.read?` gives the table that the statements build.
-/

namespace ModelGateway.Toml

/-! ## Between values -/

/-- Drops blanks within a line. -/
def dropBlanks (cs : List Char) : List Char :=
  cs.dropWhile isBlank

/-- Drops a comment up to the end of its line. -/
def dropComment? : List Char → Option (List Char)
  | '#' :: rest =>
    match rest.dropWhile isPlain with
    | [] => some []
    | '\n' :: more => some ('\n' :: more)
    | '\r' :: '\n' :: more => some ('\n' :: more)
    | _ => none
  | cs => some cs

/-- Drops blanks, comments and line breaks. -/
def dropLines? : Nat → List Char → Option (List Char)
  | 0, cs => some cs
  | fuel + 1, cs => do
    match ← dropComment? (dropBlanks cs) with
    | '\n' :: rest => dropLines? fuel rest
    | '\r' :: '\n' :: rest => dropLines? fuel rest
    | rest => return rest

/-- Drops whatever may stand between two values of a list. -/
def dropGap? (cs : List Char) : Option (List Char) :=
  dropLines? cs.length cs

/-- Drops the rest of a line, in which nothing else may stand. -/
def endLine? (cs : List Char) : Option (List Char) := do
  match ← dropComment? (dropBlanks cs) with
  | [] => return []
  | '\n' :: rest => return rest
  | '\r' :: '\n' :: rest => return rest
  | _ => none

/-! ## Keys -/

/-- Whether a character may stand in a key without quotes. -/
def isKeyChar (c : Char) : Bool :=
  c.isAlphanum || c == '_' || c == '-'

/-- Reads a name with quotes or without. -/
def readName? (cs : List Char) : Option (String × List Char) :=
  match cs.takeWhile isKeyChar with
  | [] => readQuoted? false cs
  | name => some (String.ofList name, cs.dropWhile isKeyChar)

/-- Reads a name and those that follow it after points. -/
def readNames? : Nat → List Char → Option (List String × List Char)
  | 0, _ => none
  | fuel + 1, cs => do
    let (name, rest) ← readName? cs
    match dropBlanks rest with
    | '.' :: more =>
      let (names, rest) ← readNames? fuel (dropBlanks more)
      return (name :: names, rest)
    | _ => return ([name], rest)

/-- Reads a key, which may be dotted. -/
def readKey? (cs : List Char) : Option (List String × List Char) :=
  readNames? (cs.length + 1) cs

/-- Reads a key and the sign of equality after it. -/
def readAssigned? (cs : List Char) : Option (List String × List Char) := do
  let (key, rest) ← readKey? cs
  match dropBlanks rest with
  | '=' :: rest => return (key, dropBlanks rest)
  | _ => none

/-! ## Values -/

/-- Whether a character opens a table within a line. -/
def opensTable (c : Char) : Bool := c.toNat == 0x7b

/-- Whether a character closes a table within a line. -/
def closesTable (c : Char) : Bool := c.toNat == 0x7d

mutual

/-- Reads a value. -/
def readValue? : Nat → List Char → Option (Setting × List Char)
  | 0, _ => none
  | _, [] => none
  | fuel + 1, c :: rest =>
    if c == '"' || c == '\'' then
      (readQuoted? true (c :: rest)).map fun (text, rest) => (.text text, rest)
    else if c == '[' then do
      let (items, rest) ← readItems? fuel (← dropGap? rest)
      return (.list items, rest)
    else if opensTable c then
      match dropBlanks rest with
      | [] => none
      | d :: more =>
        if closesTable d then some (.table [], more)
        else do
          let (node, rest) ← readEntries? fuel (.empty .header) (d :: more)
          return (node.toSetting, rest)
    else
      let (word, rest) := spanWord (c :: rest)
      (word? word).map (·, rest)

/-- Reads the items of a list up to its end; a comma may follow the last one. -/
def readItems? : Nat → List Char → Option (List Setting × List Char)
  | 0, _ => none
  | _, ']' :: rest => some ([], rest)
  | fuel + 1, cs => do
    let (item, rest) ← readValue? fuel cs
    match ← dropGap? rest with
    | ',' :: more =>
      let (items, rest) ← readItems? fuel (← dropGap? more)
      return (item :: items, rest)
    | ']' :: more => return ([item], more)
    | _ => none

/-- Reads the entries of a table within a line up to its end. -/
def readEntries? : Nat → Node → List Char → Option (Node × List Char)
  | 0, _, _ => none
  | fuel + 1, node, cs => do
    let (key, rest) ← readAssigned? cs
    let (value, rest) ← readValue? fuel rest
    let node ← node.assign key value
    match dropBlanks rest with
    | [] => none
    | c :: more =>
      if closesTable c then return (node, more)
      else if c == ',' then readEntries? fuel node (dropBlanks more)
      else none

end

/-! ## Statements -/

/-- A file as far as it is read: its tables, and the way to the one that keys are added to. -/
structure Draft where
  root : Node
  current : List String

namespace Draft

/-- A file without statements. -/
def empty : Draft := { root := .empty .header, current := [] }

/-- Gives a value to a key of the current table. -/
def assign (d : Draft) (key : List String) (value : Setting) : Option Draft :=
  (d.root.within false d.current (·.assign key value)).map ({ d with root := · })

/-- Goes on to the table of a header. -/
def header (d : Draft) (repeated : Bool) (key : List String) : Option Draft :=
  (d.root.header repeated key).map ({ root := ·, current := key })

end Draft

/-- Reads the closing brackets of a header. -/
def closeHeader? (repeated : Bool) (cs : List Char) : Option (List Char) :=
  match repeated, cs with
  | true, ']' :: ']' :: rest => some rest
  | false, ']' :: rest => some rest
  | _, _ => none

/-- Reads a header after its opening brackets. -/
def readHeader? (repeated : Bool) (d : Draft) (cs : List Char) : Option (Draft × List Char) := do
  let (key, rest) ← readKey? (dropBlanks cs)
  let rest ← closeHeader? repeated (dropBlanks rest)
  return (← d.header repeated key, rest)

/-- Reads a statement. -/
def readStatement? (d : Draft) : List Char → Option (Draft × List Char)
  | '[' :: '[' :: rest => readHeader? true d rest
  | '[' :: rest => readHeader? false d rest
  | cs => do
    let (key, rest) ← readAssigned? cs
    let (value, rest) ← readValue? (2 * rest.length + 2) rest
    return (← d.assign key value, rest)

/-- Reads statements up to the end of the text. -/
def readStatements? : Nat → Draft → List Char → Option Draft
  | 0, _, _ => none
  | fuel + 1, d, cs => do
    match ← dropGap? cs with
    | [] => return d
    | rest =>
      let (d, rest) ← readStatement? d rest
      readStatements? fuel d (← endLine? rest)

/-- Drops a byte order mark. -/
def dropMark : List Char → List Char
  | c :: rest => if c.toNat = 0xFEFF then rest else c :: rest
  | [] => []

/-- Reads a file. -/
def read? (text : String) : Option Setting :=
  let cs := dropMark text.toList
  (readStatements? (cs.length + 1) .empty cs).map (·.root.toSetting)

end ModelGateway.Toml
