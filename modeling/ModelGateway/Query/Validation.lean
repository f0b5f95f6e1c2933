import ModelGateway.Query.Expansion
import ModelGateway.Query.TypeSystem

/-!
# Valid requests

Whether a request with its variables fits a type system (`Executable.isValid`): the rules are about
the expanded operations and about the fragments, which all have to be used. The types of variables
are not held against the places where the variables occur.
-/

namespace ModelGateway.Query

/-! ## Values -/

namespace Value

mutual

/-- The value with the variables filled in; none if one has no value. -/
def fill? (bindings : Entries Json) : Value → Option Json
  | .variable name => bindings.get? name
  | .null => some .null
  | .bool b => some (.bool b)
  | .number n => some (.num n)
  | .string s => some (.str s)
  | .enum name => some (.str name)
  | .list items => (fillItems? bindings items).map .arr
  | .object entries => (fillEntries? bindings entries).map .obj

/-- Items with the variables filled in. -/
def fillItems? (bindings : Entries Json) : List Value → Option (List Json)
  | [] => some []
  | v :: rest => do return (← v.fill? bindings) :: (← fillItems? bindings rest)

/-- Entries with the variables filled in. -/
def fillEntries? (bindings : Entries Json) : List (String × Value) → Option (List (String × Json))
  | [] => some []
  | (name, v) :: rest => do return (name, ← v.fill? bindings) :: (← fillEntries? bindings rest)

end

mutual

/-- The names of the variables in a value. -/
def variableNames : Value → List String
  | .variable name => [name]
  | .list items => variablesOfItems items
  | .object entries => variablesOfEntries entries
  | .null | .bool _ | .number _ | .string _ | .enum _ => []

/-- The names of the variables in items. -/
def variablesOfItems : List Value → List String
  | [] => []
  | v :: rest => v.variableNames ++ variablesOfItems rest

/-- The names of the variables in entries. -/
def variablesOfEntries : List (String × Value) → List String
  | [] => []
  | (_, v) :: rest => v.variableNames ++ variablesOfEntries rest

end

mutual

/-- Whether two values are written alike, up to the order of names. -/
def same : Value → Value → Bool
  | .variable a, .variable b => a == b
  | .null, .null => true
  | .bool a, .bool b => a == b
  | .number a, .number b => a.same b
  | .string a, .string b => a == b
  | .enum a, .enum b => a == b
  | .list a, .list b => sameItems a b
  | .object a, .object b => a.length == b.length && sameEntries a b
  | _, _ => false

/-- Item by item `same`. -/
def sameItems : List Value → List Value → Bool
  | [], [] => true
  | x :: xs, y :: ys => same x y && sameItems xs ys
  | _, _ => false

/-- Whether every entry of the first list has the same value in the second. -/
def sameEntries : List (String × Value) → List (String × Value) → Bool
  | [], _ => true
  | (k, x) :: xs, ys =>
    (match Entries.get? ys k with
      | some y => same x y
      | none => false) && sameEntries xs ys

end

end Value

/-! ## Arguments and directives -/

/-- Whether no name occurs twice. -/
def noRepeats : List String → Bool
  | [] => true
  | name :: rest => !rest.contains name && noRepeats rest

/-- What a request is checked against. -/
structure Checker where
  types : TypeSystem
  /-- The values given for the variables. -/
  bindings : Entries Json

namespace Checker

/-- Whether an argument is known and, as far as its value is, of its type. -/
def isArgument (c : Checker) (known : List InputDefinition) (argument : String × Value) : Bool :=
  match known.find? (·.name == argument.1) with
  | none => false
  | some i =>
    match argument.2.fill? c.bindings with
    | some value => c.types.isValue i.type value
    | none => true

/-- Whether arguments fit: none twice, none unknown, none that is needed missing. -/
def areArguments (c : Checker) (known : List InputDefinition) (arguments : Arguments) : Bool :=
  noRepeats (arguments.map (·.1)) && arguments.all (c.isArgument known)
    && known.all fun i => !i.isRequired || arguments.any (·.1 == i.name)

/-- The argument of the directives that requests may use. -/
def conditionArgument : InputDefinition :=
  { name := "if", type := .nonNull (.named "Boolean"), default := none }

/-- Whether a directive may stand at a selection. -/
def isDirective (c : Checker) (d : Directive) : Bool :=
  (d.name == "skip" || d.name == "include") && c.areArguments [conditionArgument] d.arguments

/-- Whether directives may stand at a selection, none twice. -/
def areDirectives (c : Checker) (ds : List Directive) : Bool :=
  noRepeats (ds.map (·.name)) && ds.all c.isDirective

/-! ## Selections -/

/-- Whether a field has selections exactly if its type has fields. -/
def selectsWhatIsThere (c : Checker) (f : FieldDefinition) (selections : List Selection) : Bool :=
  c.types.isComposite f.type.typeName == !selections.isEmpty

mutual

/-- Whether a selection fits objects of a type. -/
def isSelection (c : Checker) (object : String) : Selection → Bool
  | .field _ name arguments directives selections _ =>
    c.areDirectives directives
      && (name == "__typename" ||
        match c.types.field? object name with
        | none => false
        | some f =>
          c.areArguments f.arguments arguments && c.selectsWhatIsThere f selections
            && c.areSelections f.type.typeName selections)
  | .inline condition directives selections =>
    c.areDirectives directives
      && (match condition with
        | none => true
        | some name => name == object)
      && c.areSelections object selections
  | .spread _ _ => false

/-- Whether selections fit objects of a type. -/
def areSelections (c : Checker) (object : String) : List Selection → Bool
  | [] => true
  | s :: rest => c.isSelection object s && c.areSelections object rest

end

end Checker

/-! ## Fields under one name -/

/-- A field of a selection set with the condition that it stands under. -/
structure Occurrence where
  condition : Option String
  key : String
  name : String
  arguments : Arguments

namespace Occurrence

/-- Whether two fields are answered under one name but are different. -/
def conflicts (a b : Occurrence) : Bool :=
  a.condition == b.condition && a.key == b.key
    && !(a.name == b.name && a.arguments.length == b.arguments.length
      && a.arguments.all fun (name, value) =>
        match Entries.get? b.arguments name with
        | some other => value.same other
        | none => false)

/-- Whether some field conflicts with the first one of its name and condition. -/
def anyConflict : List Occurrence → List Occurrence → Bool
  | _, [] => false
  | seen, o :: rest =>
    match seen.find? fun p => p.condition == o.condition && p.key == o.key with
    | some first => first.conflicts o || anyConflict seen rest
    | none => anyConflict (seen ++ [o]) rest

end Occurrence

namespace Selection

/-- The fields of a selection set, those in fragments included. -/
def occurrences (condition : Option String) : List Selection → List Occurrence
  | [] => []
  | .field label name arguments _ _ _ :: rest =>
    ⟨condition, responseKey label name, name, arguments⟩ :: occurrences condition rest
  | .inline inner _ selections :: rest => occurrences inner selections ++ occurrences condition rest
  | .spread _ _ :: rest => occurrences condition rest

/-- Whether a selection set and those below it are free of conflicts. -/
def isFreeOfConflicts (selections : List Selection) : Bool :=
  !Occurrence.anyConflict [] (occurrences none selections)

mutual

/-- Whether the selection sets below a selection are free of conflicts. -/
def hasNoConflicts : Selection → Bool
  | .field _ _ _ _ selections _ => isFreeOfConflicts selections && haveNoConflicts selections
  | .inline _ _ selections => isFreeOfConflicts selections && haveNoConflicts selections
  | .spread _ _ => true

/-- Whether the selection sets below some selections are free of conflicts. -/
def haveNoConflicts : List Selection → Bool
  | [] => true
  | s :: rest => s.hasNoConflicts && haveNoConflicts rest

end

/-! ## Variables -/

/-- The names of the variables in arguments. -/
def argumentVariables (arguments : Arguments) : List String :=
  arguments.flatMap (·.2.variableNames)

/-- The names of the variables in directives. -/
def directiveVariables (directives : List Directive) : List String :=
  directives.flatMap fun d => argumentVariables d.arguments

mutual

/-- The names of the variables in a selection. -/
def variableNames : Selection → List String
  | .field _ _ arguments directives selections _ =>
    argumentVariables arguments ++ directiveVariables directives ++ variablesOf selections
  | .inline _ directives selections => directiveVariables directives ++ variablesOf selections
  | .spread _ directives => directiveVariables directives

/-- The names of the variables in some selections. -/
def variablesOf : List Selection → List String
  | [] => []
  | s :: rest => s.variableNames ++ variablesOf rest

end

end Selection

namespace Checker

/-- Whether a default value fits; a variable that cannot be null must not have one. -/
def isDefault (c : Checker) (v : VariableDefinition) : Bool :=
  match v.default with
  | none => true
  | some value =>
    v.type.isNullable &&
      match value.fill? [] with
      | some value => c.types.isValue v.type value
      | none => false

/-- Whether a variable has a value where it needs one. -/
def isGiven (c : Checker) (v : VariableDefinition) : Bool :=
  v.type.isNullable || c.bindings.contains v.name

/-- Whether a variable is well defined. -/
def isVariable (c : Checker) (v : VariableDefinition) : Bool :=
  c.types.isInput v.type.typeName && v.directives.isEmpty && c.isDefault v && c.isGiven v

/-- Whether the variables of an operation are those that it uses. -/
def areVariables (c : Checker) (o : Operation) : Bool :=
  let defined := o.variableDefinitions.map (·.name)
  let used := Selection.variablesOf o.selections
  noRepeats defined && o.variableDefinitions.all c.isVariable && used.all (defined.contains ·)
    && defined.all (used.contains ·)

/-- Whether an operation fits. -/
def isOperation (c : Checker) (o : Operation) : Bool :=
  match c.types.root? o.kind with
  | none => false
  | some root =>
    o.directives.isEmpty && c.areVariables o && c.areSelections root o.selections
      && Selection.isFreeOfConflicts o.selections && Selection.haveNoConflicts o.selections

end Checker

/-! ## Fragments -/

namespace Executable

/-- Adds the fragments that some fragments spread, in at most as many rounds as there are fragments.
-/
def reachFragments (d : Executable) : Nat → List String → List String → List String
  | 0, seen, _ => seen
  | _ + 1, seen, [] => seen
  | rounds + 1, seen, names =>
    let new := names.eraseDups.filter (!seen.contains ·)
    let next := new.flatMap fun name =>
      match d.fragment? name with
      | some f => Selection.spreadsOf f.selections
      | none => []
    d.reachFragments rounds (seen ++ new) next

/-- The fragments that the operations use. -/
def usedFragments (d : Executable) : List String :=
  d.reachFragments (d.fragments.length + 1) []
    (d.operations.toList.flatMap fun o => Selection.spreadsOf o.selections)

/-- Whether every fragment is used, is for a type with fields and has no directives. -/
def areFragments (d : Executable) (types : TypeSystem) : Bool :=
  let used := d.usedFragments
  d.fragments.all fun f =>
    used.contains f.name && types.isComposite f.condition && f.directives.isEmpty

/-- Whether a request whose expansion is `expanded` fits the types. -/
def isValid (d expanded : Executable) (types : TypeSystem) (bindings : Entries Json) : Bool :=
  d.areFragments types && expanded.operations.toList.all (Checker.isOperation ⟨types, bindings⟩)

end Executable

end ModelGateway.Query
