import ModelGateway.Client.Fault
import ModelGateway.Document.Key
import ModelGateway.Record.Compare
import ModelGateway.Text.Lower

/-!
# Filters

A `where` argument is read once into a filter (`Filter.ofArgument`) and then decided on every record
(`Filter.matches`). Filters speak about columns only; relations are refused.
-/

namespace ModelGateway

/-- How two texts are related. -/
inductive TextRelation where
  | contains
  | startsWith
  | endsWith
deriving DecidableEq, Repr

/-- A condition on one value. -/
inductive Condition where
  | equals (value : Json)
  | oneOf (values : List Json)
  /-- Not null and none of the values. -/
  | noneOf (values : List Json)
  | not (inner : Condition)
  | less (value : Json)
  | atMost (value : Json)
  | greater (value : Json)
  | atLeast (value : Json)
  | text (relation : TextRelation) (part : String) (insensitive : Bool)
  /-- All of several conditions. -/
  | all (parts : List Condition)

/-- A filter of records. -/
inductive Filter where
  /-- Every record. -/
  | all
  | and (parts : List Filter)
  | or (parts : List Filter)
  /-- None of the parts. -/
  | not (parts : List Filter)
  | field (name : String) (condition : Condition)

/-! ## Conditions -/

namespace TextRelation

/-- The relation that an operator means. -/
def ofName? : String → Option TextRelation
  | "contains" => some .contains
  | "startsWith" => some .startsWith
  | "endsWith" => some .endsWith
  | _ => none

/-- Whether a text stands in the relation to a part. -/
def holds (relation : TextRelation) (whole part : String) : Bool :=
  match relation with
  | .contains => Text.contains whole part
  | .startsWith => Text.startsWith whole part
  | .endsWith => Text.endsWith whole part

/-- Whether a value is a text that stands in the relation to a part. -/
def holdsOf (relation : TextRelation) (insensitive : Bool) (actual : Json) (part : String) : Bool :=
  match actual with
  | .str whole =>
    if insensitive then relation.holds (Text.lower whole) (Text.lower part)
    else relation.holds whole part
  | _ => false

end TextRelation

namespace Condition

/-- The operand of an operator that takes a list. -/
def listOperand (operator : String) : Json → Except Fault (List Json)
  | .arr items => .ok items
  | _ => .error (.operandNotList operator)

/-- The operand of an operator that takes a text. -/
def textOperand (operator : String) : Json → Except Fault String
  | .str s => .ok s
  | _ => .error (.operandNotText operator)

/-- The condition of an operator other than `not`. -/
def ofOperator (insensitive : Bool) (operator : String) (operand : Json) : Except Fault Condition :=
  match operator with
  | "equals" => .ok (.equals operand)
  | "in" => (listOperand operator operand).map .oneOf
  | "notIn" => (listOperand operator operand).map .noneOf
  | "lt" => .ok (.less operand)
  | "lte" => .ok (.atMost operand)
  | "gt" => .ok (.greater operand)
  | "gte" => .ok (.atLeast operand)
  | _ =>
    match TextRelation.ofName? operator with
    | some relation => (textOperand operator operand).map (.text relation · insensitive)
    | none => .error (.unknownOperator operator)

/-- A single condition stands for itself, others for their conjunction. -/
def conjunction : List Condition → Condition
  | [condition] => condition
  | conditions => .all conditions

/-- Whether an operator object asks to ignore letter case. -/
def isInsensitive (operators : List (String × Json)) : Bool :=
  (Entries.get? operators "mode").bind Json.asString? == some "insensitive"

mutual

/-- Reads a condition: an object of operators, or a value to be equal to. -/
def ofJson : Json → Except Fault Condition
  | .obj operators => (ofOperators (isInsensitive operators) operators).map conjunction
  | .null => .ok (.equals .null)
  | .bool b => .ok (.equals (.bool b))
  | .num n => .ok (.equals (.num n))
  | .str s => .ok (.equals (.str s))
  | .arr items => .ok (.equals (.arr items))

/-- Reads the operators of an object; `mode` is no condition of its own. -/
def ofOperators (insensitive : Bool) : List (String × Json) → Except Fault (List Condition)
  | [] => .ok []
  | (operator, operand) :: rest =>
    if operator = "mode" then ofOperators insensitive rest
    else do
      let condition ←
        if operator = "not" then (ofJson operand).map .not
        else ofOperator insensitive operator operand
      return condition :: (← ofOperators insensitive rest)

end

mutual

/-- Whether a value meets the condition. -/
def holds : Condition → Json → Bool
  | .equals expected, actual => valuesEqual actual expected
  | .oneOf values, actual => values.any (valuesEqual actual)
  | .noneOf values, actual => !actual.isNull && !values.any (valuesEqual actual)
  | .not inner, actual => !inner.holds actual
  | .less value, actual => compareValues actual value == some .lt
  | .atMost value, actual =>
    compareValues actual value == some .lt || compareValues actual value == some .eq
  | .greater value, actual => compareValues actual value == some .gt
  | .atLeast value, actual =>
    compareValues actual value == some .gt || compareValues actual value == some .eq
  | .text relation part insensitive, actual => relation.holdsOf insensitive actual part
  | .all parts, actual => holdsAll parts actual

/-- Whether a value meets all conditions. -/
def holdsAll : List Condition → Json → Bool
  | [], _ => true
  | condition :: rest, actual => condition.holds actual && holdsAll rest actual

end

end Condition

/-! ## Filters -/

namespace Filter

/-- How the items under a name of a filter combine. -/
inductive Combinator where
  | and
  | or
  | not

/-- The combinator that a name means. -/
def Combinator.ofName? : String → Option Combinator
  | "AND" => some .and
  | "OR" => some .or
  | "NOT" => some .not
  | _ => none

/-- The combination of filters. -/
def Combinator.combine : Combinator → List Filter → Filter
  | .and, parts => .and parts
  | .or, parts => .or parts
  | .not, parts => .not parts

/-- No part stands for every record, a single part for itself, others for their conjunction. -/
def conjunction : List Filter → Filter
  | [] => .all
  | [part] => part
  | parts => .and parts

/-- The filter that a column equals a value. -/
def equals (column : String) (value : Json) : Filter :=
  .field column (.equals value)

/-- The filter that columns equal values. -/
def allEqual (pairs : List (String × Json)) : Filter :=
  .and (pairs.map fun (column, value) => equals column value)

/-- The parts of a compound key, each in the order of the key. -/
def keyParts (key : String) (parts : List (String × Json)) : List Field → Except Fault (List Filter)
  | [] => .ok []
  | id :: rest =>
    match Entries.get? parts id.name with
    | none => .error (.keyPartMissing key id.name)
    | some value => do return equals id.name value :: (← keyParts key parts rest)

/-- Whether a name is that of the model's compound key. -/
def isCompoundKey (m : Model) (name : String) : Bool :=
  let ids := m.identifyingFields
  decide (1 < ids.length) && m.compoundKeyName ids == name

/-- Reads an entry that is no combinator: a condition on a column, or a compound key. -/
def ofEntry (m : Model) (name : String) (value : Json) : Except Fault Filter :=
  match m.field? name with
  | some f =>
    if f.isRelation then .error (.relationFilter m.name name)
    else (Condition.ofJson value).map (.field name)
  | none =>
    if isCompoundKey m name then
      match value with
      | .obj parts => (keyParts name parts m.identifyingFields).map .and
      | _ => .error (.keyNotObject name)
    else .error (.unknownFilter m.name name)

mutual

/-- Reads a filter: null, or an object of which every entry has to hold. -/
def ofJson (m : Model) : Json → Except Fault Filter
  | .null => .ok .all
  | .obj entries => (ofEntries m entries).map conjunction
  | .bool b => .error (.filterNotObject (.bool b))
  | .num n => .error (.filterNotObject (.num n))
  | .str s => .error (.filterNotObject (.str s))
  | .arr items => .error (.filterNotObject (.arr items))

/-- Reads a list of filters. -/
def ofItems (m : Model) : List Json → Except Fault (List Filter)
  | [] => .ok []
  | item :: rest => do return (← ofJson m item) :: (← ofItems m rest)

/-- Reads the entries of an object. A combinator holds a list of filters or a single one. -/
def ofEntries (m : Model) : List (String × Json) → Except Fault (List Filter)
  | [] => .ok []
  | (name, .arr items) :: rest => do
    let part ←
      match Combinator.ofName? name with
      | some combinator => (ofItems m items).map combinator.combine
      | none => ofEntry m name (.arr items)
    return part :: (← ofEntries m rest)
  | (name, value) :: rest => do
    let part ←
      match Combinator.ofName? name with
      | some combinator => (ofJson m value).map fun single => combinator.combine [single]
      | none => ofEntry m name value
    return part :: (← ofEntries m rest)

end

/-- Reads a `where` argument, which may be absent. -/
def ofArgument (m : Model) : Option Json → Except Fault Filter
  | none => .ok .all
  | some argument => ofJson m argument

/-- Whether the filter is the one that needs no record. -/
def isAll : Filter → Bool
  | .all => true
  | _ => false

mutual

/-- Whether a record passes the filter. -/
def «matches» : Filter → Record → Bool
  | .all, _ => true
  | .and parts, r => matchesAll parts r
  | .or parts, r => matchesAny parts r
  | .not parts, r => !matchesAny parts r
  | .field name condition, r => condition.holds (Record.value r name)

/-- Whether a record passes all filters. -/
def matchesAll : List Filter → Record → Bool
  | [], _ => true
  | part :: rest, r => part.matches r && matchesAll rest r

/-- Whether a record passes some filter. -/
def matchesAny : List Filter → Record → Bool
  | [], _ => false
  | part :: rest, r => part.matches r || matchesAny rest r

end

end Filter

end ModelGateway
