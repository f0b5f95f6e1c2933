import ModelGateway.Query.Answer
import ModelGateway.Query.Introspection
import ModelGateway.Query.Validation

/-!
# Executing requests

Each field of a selection set is resolved in order, together with everything below it, before the
next one. A field that fails is left out and its error is noted; nothing else is affected. An object
none of whose fields has a value is null. Resolvers act on a state, which is passed from field to
field.
-/

namespace ModelGateway.Query

/-- What a resolver gives. -/
structure Resolved where
  value : Json
  /-- Whether strings stand for members of an enum. -/
  isEnum : Bool

/-- How requests are executed: resolvers on a state `σ` with errors `ε`. -/
structure Executor (σ ε : Type) where
  types : TypeSystem
  /-- The values of the variables of the operation. -/
  bindings : Entries Json
  /-- The value of a field: by type and name, for a parent, with arguments and selections. -/
  resolve : (object field : String) → (parent : Json) → (arguments : Entries Json) →
    List Selection → σ → σ × Except ε Resolved

/-- The state of the resolvers and the errors so far. -/
structure Progress (σ ε : Type) where
  state : σ
  errors : List (ResponseError ε)

/-- A part of an execution. -/
abbrev Run (σ ε α : Type) := StateM (Progress σ ε) α

namespace Executor

variable {σ ε : Type}

/-- Notes an error. -/
def fail (e : ResponseError ε) : Run σ ε Unit :=
  modify fun p => { p with errors := p.errors ++ [e] }

/-! ## Arguments and conditions -/

/-- The arguments of a field with the variables filled in. -/
def arguments (x : Executor σ ε) (arguments : Arguments) : Entries Json :=
  Entries.ofList (arguments.map fun (name, value) => (name, (value.fill? x.bindings).getD .null))

/-- The value of a directive's condition. -/
def condition (x : Executor σ ε) (d : Directive) : Json :=
  ((x.arguments d.arguments).get? "if").getD .null

/-- Whether a selection with some directives counts. -/
def isKept (x : Executor σ ε) (directives : List Directive) : Bool :=
  directives.all fun d =>
    match x.condition d with
    | .bool b => b == (d.name == "include")
    | _ => false

/-- Whether the conditions of directives are truth values, as far as they are looked at. -/
def areConditions (x : Executor σ ε) : List Directive → Bool
  | [] => true
  | d :: rest =>
    match x.condition d with
    | .bool b => b != (d.name == "include") || x.areConditions rest
    | _ => false

/-- Whether an object is of the type that a condition asks for. -/
def isOfType (object : String) : Option String → Bool
  | none => true
  | some name => name == object

/-- Whether all conditions in a selection set are truth values, as far as they are looked at. -/
def conditionsHold (x : Executor σ ε) (object : String) : List Selection → Bool
  | [] => true
  | .field _ _ _ directives _ _ :: rest =>
    x.areConditions directives && x.conditionsHold object rest
  | .spread _ directives :: rest => x.areConditions directives && x.conditionsHold object rest
  | .inline condition directives selections :: rest =>
    x.areConditions directives
      && (!(x.isKept directives && isOfType object condition) || x.conditionsHold object selections)
      && x.conditionsHold object rest

/-- An object of some answers, null if there are none. -/
def objectOf (entries : Entries Json) : Json :=
  if entries.isEmpty then .null else .obj entries

/-! ## Introspection -/

/-- The value of a field about types, given how things with fields are answered. -/
def metaValue (object : MetaNode → Json) : MetaValue → Json
  | .leaf value => value
  | .node node => object node
  | .nodes nodes => .arr (nodes.map object)

/-- The answers of a thing that introspection knows. -/
def metaAnswers (x : Executor σ ε) (node : MetaNode) (out : Entries Json) :
    List Selection → Entries Json
  | [] => out
  | .spread _ _ :: rest => x.metaAnswers node out rest
  | .inline condition directives selections :: rest =>
    if x.isKept directives && isOfType node.typeName condition then
      x.metaAnswers node (x.metaAnswers node out selections) rest
    else x.metaAnswers node out rest
  | .field label name _ directives selections _ :: rest =>
    if x.isKept directives then
      let value :=
        if name = "__typename" then .str node.typeName
        else
          metaValue (fun child => objectOf (x.metaAnswers child [] selections))
            (node.value x.types name)
      x.metaAnswers node (addAnswer out (Selection.responseKey label name) value) rest
    else x.metaAnswers node out rest

/-- What the root fields of introspection are about. -/
def metaRoot? (x : Executor σ ε) (field : String) (arguments : Entries Json) :
    Option (Option MetaNode) :=
  if field = "__schema" then some (some .schema)
  else if field = "__type" then
    match arguments.get? "name" with
    | some (.str name) =>
      some (if x.types.visible.contains name then some (.type (.named name)) else none)
    | _ => some none
  else none

/-! ## Values of fields -/

/-- The value of a scalar or enum; a value that is no member of the enum fails. -/
def leafValue (type : NamedType) (isEnum : Bool) (value : Json) : Option Json :=
  match type with
  | .enum values =>
    match value with
    | .str s => if isEnum && values.contains s then some value else none
    | _ => none
  | .scalar _ | .object _ => some value

/-- The values of items in order, up to the first that fails. -/
def completeItems (item : Json → List PathItem → Run σ ε (Option Json)) (path : List PathItem) :
    Nat → List Json → Run σ ε (Option (List Json))
  | _, [] => return some []
  | place, v :: rest => do
    match ← item v (path ++ [.index place]) with
    | none => return none
    | some value =>
      match ← completeItems item path (place + 1) rest with
      | none => return none
      | some values => return some (value :: values)

/-- Notes that the value at a place does not fit. -/
def unfit (path : List PathItem) : Run σ ε (Option Json) := do
  fail (.unfitValue path)
  return none

/-- The value of a field of a type, given how a value of the named type is answered; none if it does
not fit, which is noted. -/
def complete (named : Json → List PathItem → Run σ ε (Option Json)) :
    TypeRef → Option Json → List PathItem → Run σ ε (Option Json)
  | .nonNull _, none, path => unfit path
  | .nonNull inner, some value, path => complete named inner (some value) path
  | .list _, none, _ => return some .null
  | .list item, some (.arr items), path => do
    let values ← completeItems (fun v p => complete named item (some v) p) path 0 items
    return values.map .arr
  | .list _, some _, path => unfit path
  | .named _, none, _ => return some .null
  | .named _, some value, path => named value path

/-- A value that counts as absent if it is null. -/
def present? (value : Json) : Option Json :=
  if value.isNull then none else some value

/-- Resolves a field and completes its value, given how an object of the field's type is answered.
-/
def resolveField (x : Executor σ ε) (object : String) (parent : Json) (f : FieldDefinition)
    (arguments : Entries Json) (selections : List Selection) (position : Position)
    (path : List PathItem) (child : Json → List PathItem → Run σ ε (Option Json)) :
    Run σ ε (Option Json) := do
  let p ← get
  let (state, result) := x.resolve object f.name parent arguments selections p.state
  set { p with state }
  match result with
  | .error e =>
    fail (.resolver e position)
    return none
  | .ok resolved =>
    let named := fun value path =>
      match x.types.type? f.type.typeName with
      | some (.object _) | none => child value path
      | some type =>
        match leafValue type resolved.isEnum value with
        | some value => pure (some value)
        | none => unfit path
    complete named f.type (present? resolved.value) path

/-! ## Selections -/

/-- The answers of an object to selections, added to earlier ones. -/
def answers (x : Executor σ ε) (object : String) (parent : Json) (path : List PathItem)
    (out : Entries Json) : List Selection → Run σ ε (Entries Json)
  | [] => return out
  | .spread _ _ :: rest => x.answers object parent path out rest
  | .inline condition directives selections :: rest => do
    if x.isKept directives && isOfType object condition then
      let out ← x.answers object parent path out selections
      x.answers object parent path out rest
    else x.answers object parent path out rest
  | .field label name args directives selections position :: rest => do
    if x.isKept directives then
      let key := Selection.responseKey label name
      let here := path ++ [.key key]
      let arguments := x.arguments args
      let value ←
        if name = "__typename" then pure (some (.str object))
        else
          match x.metaRoot? name arguments with
          | some node =>
            pure (some (match node with
              | some node => objectOf (x.metaAnswers node [] selections)
              | none => .null))
          | none =>
            match x.types.field? object name with
            | none => pure none
            | some f =>
              x.resolveField object parent f arguments selections position here fun value path => do
                if x.conditionsHold f.type.typeName selections then
                  let found ← x.answers f.type.typeName value path [] selections
                  return some (objectOf found)
                else
                  fail .unreadableCondition
                  return none
      let out :=
        match value with
        | some value => addAnswer out key value
        | none => out
      x.answers object parent path out rest
    else x.answers object parent path out rest

/-- Executes the selections of an operation on a root type. -/
def run (x : Executor σ ε) (root : String) (selections : List Selection) (state : σ) :
    Response ε × σ :=
  if x.conditionsHold root selections then
    let (found, p) := (x.answers root .null [] [] selections).run { state, errors := [] }
    ({ data := objectOf found, errors := p.errors }, p.state)
  else (.refusal .unreadableCondition, state)

end Executor

end ModelGateway.Query
