import ModelGateway.Query.Token

/-!
# Reading request texts

The grammar of executable documents over tokens. Each production is a `Step`, which takes tokens
from the front; a production that contains itself has a bound on its nesting, and the number of
tokens is always enough.
-/

namespace ModelGateway.Query

/-- A production: what the first tokens say, with the tokens after them. -/
abbrev Step (α : Type) := StateT (List Placed) Option α

namespace Step

/-! ## Tokens -/

/-- The next token, which stays. -/
def peek? : Step (Option Placed) := do
  return (← get).head?

/-- Takes the next token. -/
def next : Step Placed := do
  match ← get with
  | [] => failure
  | t :: rest => set rest; return t

/-- Whether a token is a certain punctuation. -/
def isPunctuation (c : Char) (t : Placed) : Bool :=
  match t.token with
  | .punctuation d => c == d
  | _ => false

/-- Takes a certain punctuation. -/
def punctuation (c : Char) : Step Unit := do
  let t ← next
  if isPunctuation c t then return () else failure

/-- Whether a certain punctuation comes next. -/
def isNext (c : Char) : Step Bool := do
  return ((← peek?).map (isPunctuation c)).getD false

/-- Takes a certain punctuation if it comes next. -/
def accept (c : Char) : Step Bool := do
  if ← isNext c then punctuation c; return true else return false

/-- Takes a name. -/
def name : Step String := do
  match (← next).token with
  | .name s => return s
  | _ => failure

/-- Takes a certain word. -/
def word (s : String) : Step Unit := do
  if (← name) = s then return () else failure

/-- The name that comes next, if one does. -/
def nextName? : Step (Option String) := do
  match ← peek? with
  | some ⟨.name s, _⟩ => return some s
  | _ => return none

/-- Takes items up to a closing punctuation, at most `limit` of them. -/
def itemsUntil {α : Type} (close : Char) (item : Step α) : Nat → Step (List α)
  | 0 => failure
  | limit + 1 => do
    if ← accept close then return []
    let x ← item
    return x :: (← itemsUntil close item limit)

/-- Takes at least one item and a closing punctuation. -/
def someUntil {α : Type} (close : Char) (item : Step α) (limit : Nat) : Step (List α) := do
  let items ← itemsUntil close item limit
  if items.isEmpty then failure else return items

/-- The opening punctuation of objects and selection sets. -/
def openBrace : Char := '\x7b'

/-- The closing punctuation of objects and selection sets. -/
def closeBrace : Char := '\x7d'

/-! ## Values and types -/

/-- The value that a word stands for. -/
def wordValue (s : String) : Value :=
  if s = "true" then .bool true
  else if s = "false" then .bool false
  else if s = "null" then .null
  else .enum s

/-- An object with its entries; of a repeated name the last counts. -/
def objectValue (entries : List (String × Value)) : Value :=
  .object (Entries.ofList entries)

/-- An entry: a name, a colon and a value. -/
def entry (value : Step Value) : Step (String × Value) := do
  let key ← name
  punctuation ':'
  return (key, ← value)

/-- A value, in which variables may occur unless it is constant. -/
def value (constant : Bool) : Nat → Step Value
  | 0 => failure
  | limit + 1 => do
    match (← next).token with
    | .number n => return .number n
    | .text s => return .string s
    | .name s => return wordValue s
    | .spread => failure
    | .punctuation c =>
      if c = '$' then
        if constant then failure else return .variable (← name)
      else if c = '[' then return .list (← itemsUntil ']' (value constant limit) limit)
      else if c = openBrace then
        return objectValue (← itemsUntil closeBrace (entry (value constant limit)) limit)
      else failure

/-- Marks a type as without null if a `!` follows. -/
def required (type : TypeRef) : Step TypeRef := do
  if ← accept '!' then return .nonNull type else return type

/-- A type. -/
def typeRef : Nat → Step TypeRef
  | 0 => failure
  | limit + 1 => do
    if ← accept '[' then
      let item ← typeRef limit
      punctuation ']'
      required (.list item)
    else required (.named (← name))

/-! ## Arguments and directives -/

/-- Arguments in parentheses, none if there are no parentheses. -/
def arguments (constant : Bool) (limit : Nat) : Step Arguments := do
  if ← accept '(' then someUntil ')' (entry (value constant limit)) limit else return []

/-- Directives, as many as follow. -/
def directives (constant : Bool) (limit : Nat) : Nat → Step (List Directive)
  | 0 => return []
  | count + 1 => do
    if ← accept '@' then
      let name ← name
      let args ← arguments constant limit
      return { name, arguments := args } :: (← directives constant limit count)
    else return []

/-! ## Selections -/

/-- A type condition, if the word `on` follows. -/
def condition? : Step (Option String) := do
  if (← nextName?) = some "on" then
    word "on"
    return some (← name)
  else return none

/-- A selection set, given how one selection is read. -/
def selectionSet (selection : Step Selection) (limit : Nat) : Step (List Selection) := do
  punctuation openBrace
  someUntil closeBrace selection limit

/-- What follows three dots: the name of a fragment, or an inline fragment. -/
def fragmentSelection (selection : Step Selection) (limit : Nat) : Step Selection := do
  match ← nextName? with
  | some "on" | none =>
    let condition ← condition?
    let dirs ← directives false limit limit
    return .inline condition dirs (← selectionSet selection limit)
  | some _ =>
    let fragment ← name
    return .spread fragment (← directives false limit limit)

/-- A field with the position of its first name. -/
def fieldSelection (selection : Step Selection) (limit : Nat) : Step Selection := do
  let some first ← peek? | failure
  let name₁ ← name
  let aliased ← accept ':'
  let name₂ ← if aliased then name else pure name₁
  let args ← arguments false limit
  let dirs ← directives false limit limit
  let selections ← if ← isNext openBrace then selectionSet selection limit else pure []
  return .field (if aliased then some name₁ else none) name₂ args dirs selections first.position

/-- A selection, with at most `depth` selection sets inside one another below it and lists of at
most `limit` parts. -/
def selection (limit : Nat) : Nat → Step Selection
  | 0 => failure
  | depth + 1 => do
    match ← peek? with
    | some ⟨.spread, _⟩ =>
      let _ ← next
      fragmentSelection (selection limit depth) limit
    | _ => fieldSelection (selection limit depth) limit

/-! ## Definitions -/

/-- The kind of operation that a word begins. -/
def operationKind? (s : String) : Option OperationKind :=
  if s = "query" then some .query
  else if s = "mutation" then some .mutation
  else if s = "subscription" then some .subscription
  else none

/-- A variable definition. -/
def variableDefinition (limit : Nat) : Step VariableDefinition := do
  punctuation '$'
  let name ← name
  punctuation ':'
  let type ← typeRef limit
  let dirs ← directives true limit limit
  let default ← if ← accept '=' then pure (some (← value true limit)) else pure none
  return { name, type, directives := dirs, default }

/-- Variable definitions in parentheses, none if there are no parentheses. -/
def variableDefinitions (limit : Nat) : Step (List VariableDefinition) := do
  if ← accept '(' then itemsUntil ')' (variableDefinition limit) limit else return []

/-- The greatest number of selection sets inside one another. -/
def maxNesting : Nat := 65

/-- A selection set at the top of a definition. -/
def topSelections (limit : Nat) : Step (List Selection) :=
  selectionSet (selection limit maxNesting) limit

/-- An operation after its first word. -/
def operation (kind : OperationKind) (limit : Nat) : Step (Option String × Operation) := do
  let name ← match ← nextName? with
    | some _ => some <$> name
    | none => pure none
  let variableDefinitions ← variableDefinitions limit
  let dirs ← directives false limit limit
  let selections ← topSelections limit
  return (name, { kind, variableDefinitions, directives := dirs, selections })

/-- A fragment after its first word. -/
def fragment (limit : Nat) : Step Fragment := do
  let name ← name
  word "on"
  let condition ← Step.name
  let dirs ← directives false limit limit
  return { name, condition, directives := dirs, selections := ← topSelections limit }

end Step

/-- An operation, perhaps with a name, or a fragment. -/
inductive Definition where
  | operation (name : Option String) (operation : Operation)
  | fragment (fragment : Fragment)

namespace Definition

/-- One definition. -/
def step (limit : Nat) : Step Definition := do
  match ← Step.nextName? with
  | none =>
    return .operation none
      { kind := .query, variableDefinitions := [], directives := []
        selections := ← Step.topSelections limit }
  | some s =>
    let _ ← Step.next
    match Step.operationKind? s with
    | some kind =>
      let (name, found) ← Step.operation kind limit
      return .operation name found
    | none => if s = "fragment" then return .fragment (← Step.fragment limit) else failure

/-- All definitions, at most `count` of them. -/
def all (limit : Nat) : Nat → Step (List Definition)
  | 0 => failure
  | count + 1 => do
    if (← get).isEmpty then return []
    let definition ← step limit
    return definition :: (← all limit count)

/-- The operation, if this is one. -/
def operation? : Definition → Option (Option String × Operation)
  | .operation name found => some (name, found)
  | .fragment _ => none

/-- The fragment, if this is one. -/
def fragment? : Definition → Option Fragment
  | .operation _ _ => none
  | .fragment found => some found

end Definition

namespace Executable

/-- Whether no name occurs twice. -/
def allDifferent : List String → Bool
  | [] => true
  | name :: rest => !rest.contains name && allDifferent rest

/-- Operations, either a single one without a name or some with different names. -/
def groupOperations? : List (Option String × Operation) → Option Operations
  | [] => none
  | [(none, operation)] => some (.single operation)
  | operations => do
    let named ← operations.mapM fun (name, operation) => name.map (·, operation)
    if allDifferent (named.map (·.1)) then return .named named else failure

/-- The document of some definitions. -/
def ofDefinitions? (definitions : List Definition) : Option Executable := do
  let operations ← groupOperations? (definitions.filterMap (·.operation?))
  let fragments := definitions.filterMap (·.fragment?)
  if allDifferent (fragments.map (·.name)) then return { operations, fragments } else failure

/-- Reads a request text. -/
def read? (text : String) : Option Executable := do
  let tokens ← tokensOf? text
  let limit := tokens.length + 1
  let (definitions, _) ← (Definition.all limit limit).run tokens
  ofDefinitions? definitions

end Executable

end ModelGateway.Query
