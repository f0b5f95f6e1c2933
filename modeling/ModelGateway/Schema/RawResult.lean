import ModelGateway.Client.RawValue
import ModelGateway.Json.Reader
import ModelGateway.Schema.Error

/-!
# Raw statements

The answer to a raw query keeps the driver's types: every scalar leaf becomes an object of a type
tag and a value (`RawValue.tagged`), lists and rows keep their shape. The parameters of a raw
statement are a list, or a text that holds one (`decodeParameters`).
-/

namespace ModelGateway

namespace RawValue

/-- A leaf under its type tag. -/
def envelope (tag : String) (value : Json) : Json :=
  .obj [("prisma__type", .str tag), ("prisma__value", value)]

mutual

/-- A JSON value with every leaf tagged. -/
def taggedJson : Json → Json
  | .null => envelope "null" .null
  | .bool b => envelope "bool" (.bool b)
  | .num n => envelope "number" (.num n)
  | .str s => envelope "string" (.str s)
  | .arr items => .arr (taggedJsonItems items)
  | .obj entries => .obj (taggedJsonEntries entries)

/-- Items with every leaf tagged. -/
def taggedJsonItems : List Json → List Json
  | [] => []
  | x :: xs => taggedJson x :: taggedJsonItems xs

/-- Entries with every leaf tagged. -/
def taggedJsonEntries : List (String × Json) → List (String × Json)
  | [] => []
  | (name, x) :: xs => (name, taggedJson x) :: taggedJsonEntries xs

end

mutual

/-- A driver's value with every leaf tagged. -/
def tagged : RawValue → Json
  | .null => envelope "null" .null
  | .bool b => envelope "bool" (.bool b)
  | .int n => envelope "number" (.ofInt n)
  | .bigInt n => envelope "bigint" (.str (String.ofList (Decimal.intChars n)))
  | .double d => envelope "number" d.toJson
  | .decimal text => envelope "decimal" (.str text)
  | .string s => envelope "string" (.str s)
  | .instant i => envelope "datetime" (.str i.text)
  | .json value => taggedJson value
  | .list items => .arr (taggedItems items)
  | .object columns => .obj (taggedColumns columns)

/-- Items with every leaf tagged. -/
def taggedItems : List RawValue → List Json
  | [] => []
  | x :: xs => tagged x :: taggedItems xs

/-- Columns with every leaf tagged. -/
def taggedColumns : List (String × RawValue) → List (String × Json)
  | [] => []
  | (name, x) :: xs => (name, tagged x) :: taggedColumns xs

end

end RawValue

/-- Why the arguments of a raw statement cannot be used. -/
inductive StatementFault where
  /-- There is no statement. -/
  | queryMissing (operation : String)
  /-- The text of the parameters is not JSON. -/
  | parametersUnreadable
  /-- The text of the parameters holds no list. -/
  | parametersTextNotList
  /-- The parameters are no list. -/
  | parametersNotList
deriving DecidableEq, Repr

namespace StatementFault

/-- The wording of the cause. -/
def detail : StatementFault → String
  | .queryMissing operation => s!"{operation} requires a `query` string"
  | .parametersUnreadable => "`parameters` is not valid JSON"
  | .parametersTextNotList => "`parameters` must encode a JSON array"
  | .parametersNotList => "`parameters` must be a JSON array"

/-- The gateway error. -/
def toError (fault : StatementFault) : GatewayError :=
  .invalidArgument fault.detail

end StatementFault

/-- The parameters of a raw statement: none, a list, or a text that holds a list. -/
def decodeParameters : Option Json → Except StatementFault (List Json)
  | none | some .null => .ok []
  | some (.arr items) => .ok items
  | some (.str text) =>
    match Json.read? text with
    | some (.arr items) => .ok items
    | some _ => .error .parametersTextNotList
    | none => .error .parametersUnreadable
  | some _ => .error .parametersNotList

end ModelGateway
