import ModelGateway.Json.AnyDouble
import ModelGateway.Settings.Format
import ModelGateway.Text.Lower

/-!
# Settings

The tree that configuration files and variables are gathered in. Its format is a lenient one
(`Setting.format`), since a variable is a text whatever it stands for: texts, numbers and truth
values stand for one another where their written forms do.
-/

namespace ModelGateway

/-- A setting or a table of settings. -/
inductive Setting where
  | null
  | bool (value : Bool)
  /-- A signed whole number of 64 bits. -/
  | int (value : Int)
  | float (value : AnyDouble)
  | text (value : String)
  | list (items : List Setting)
  | table (entries : List (String × Setting))

namespace Setting

instance : Inhabited Setting := ⟨.null⟩

/-! ## Conversions -/

/-- The truth value that a word stands for. -/
def ofWord? (word : String) : Option Bool :=
  match Text.lower word with
  | "true" | "on" | "yes" => some true
  | "false" | "off" | "no" => some false
  | _ => none

/-- A truth value: a number is true unless it is zero. -/
def toBool? : Setting → Option Bool
  | .bool b => some b
  | .int n => some (n != 0)
  | .float x => some !x.isZero
  | .text "1" => some true
  | .text "0" => some false
  | .text s => ofWord? s
  | _ => none

/-- Reads decimal digits with an optional plus sign as a number of 64 bits. -/
def readUnsigned? (cs : List Char) : Option Nat :=
  let digits :=
    match cs with
    | '+' :: rest => rest
    | cs => cs
  if digits.isEmpty || !digits.all Char.isDigit then none
  else
    let n := Decimal.ofDigitChars digits
    if n < wordCount then some n else none

/-- An unsigned whole number: a truth value is one or zero, another number is rounded and brought
into range. -/
def toUnsigned? : Setting → Option Nat
  | .bool b => some b.toNat
  | .int n => if 0 ≤ n then some n.toNat else none
  | .float x => some (x.toNatUpTo (wordCount - 1))
  | .text s =>
    match ofWord? s with
    | some b => some b.toNat
    | none => readUnsigned? s.toList
  | _ => none

/-- The text of a setting that is neither null, a list nor a table. -/
def toText? : Setting → Option String
  | .bool b => some (if b then "true" else "false")
  | .int n => some (String.ofList (Decimal.intChars n))
  | .float x => some x.plainText
  | .text s => some s
  | _ => none

/-- Whether this is null. -/
def isNull : Setting → Bool
  | .null => true
  | _ => false

/-- The items of a list. -/
def toItems? : Setting → Option (List Setting)
  | .list items => some items
  | _ => none

/-- The name of an alternative: a text, or the one name of a table. -/
def toWord? : Setting → Option String
  | .text s => some s
  | .table [(name, _)] => some name
  | _ => none

/-- The parts of a structure: those of a table by name, those of a list by place. -/
def toParts? (names : List String) : Setting → Option (List (Option Setting))
  | .table entries => some (names.map (Entries.get? entries))
  | .list items => some ((List.range names.length).map (items[·]?))
  | _ => none

/-- The lenient format. -/
def format : TreeFormat Setting where
  isNull := isNull
  bool? := toBool?
  unsigned? := toUnsigned?
  string? := toText?
  items? := toItems?
  word? := toWord?
  parts? := toParts?

/-! ## Variables -/

/-- Reads decimal digits with an optional sign as a signed number of 64 bits. -/
def readInt? (cs : List Char) : Option Int :=
  let (negative, digits) :=
    match cs with
    | '-' :: rest => (true, rest)
    | '+' :: rest => (false, rest)
    | cs => (false, cs)
  if digits.isEmpty || !digits.all Char.isDigit then none
  else
    let size : Int := Decimal.ofDigitChars digits
    int64? (if negative then -size else size)

/-- What the text of a variable stands for: a truth value, a number if it reads as one, else itself.
-/
def ofVariable (s : String) : Setting :=
  match Text.lower s with
  | "true" => .bool true
  | "false" => .bool false
  | _ =>
    match readInt? s.toList with
    | some n => .int n
    | none =>
      match AnyDouble.read? s.toList with
      | some x => .float x
      | none => .text s

end Setting

end ModelGateway
