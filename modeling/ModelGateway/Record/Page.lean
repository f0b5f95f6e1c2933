import ModelGateway.Client.Fault
import ModelGateway.Record.Compare

/-!
# Pages and distinct records

`skip` and `take` cut a page out of a list, a negative `take` from its end; `distinct` keeps the
first record of each combination of values.
-/

namespace ModelGateway

/-- An optional whole-number argument. -/
def integerArgument (args : Json) (name : String) : Except Fault (Option Int) :=
  match args.get? name with
  | none | some .null => .ok none
  | some value =>
    match value.asInt64? with
    | some n => .ok (some n)
    | none => .error (.notInteger name)

/-- A list of field names: one name, or the names in a list. -/
def fieldList : Option Json → List String
  | some (.str s) => [s]
  | some (.arr items) => items.filterMap Json.asString?
  | _ => []

/-- The first `take` records, or the last `-take` if it is negative. -/
def takeSigned (take : Int) (records : List Record) : List Record :=
  if 0 ≤ take then records.take take.toNat
  else records.drop (records.length - take.natAbs)

/-- The page that `skip` and `take` name. -/
def paginate (records : List Record) (args : Json) : Except Fault (List Record) := do
  let skip ← integerArgument args "skip"
  let take ← integerArgument args "take"
  let remaining := records.drop (skip.getD 0).toNat
  match take with
  | none => return remaining
  | some n => return takeSigned n remaining

/-- The values of some columns. -/
def Record.valuesOf (r : Record) (columns : List String) : List Json :=
  columns.map (Record.value r)

/-- The records whose values have not been seen. -/
def distinctFrom (columns : List String) : List (List Json) → List Record → List Record
  | _, [] => []
  | seen, r :: rest =>
    let key := Record.valuesOf r columns
    if seen.any (Json.sameItems key) then distinctFrom columns seen rest
    else r :: distinctFrom columns (key :: seen) rest

/-- The first record of each combination of values; all records if no column is named. -/
def distinct (columns : List String) (records : List Record) : List Record :=
  if columns.isEmpty then records else distinctFrom columns [] records

end ModelGateway
