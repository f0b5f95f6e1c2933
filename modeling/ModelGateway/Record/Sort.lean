import ModelGateway.Client.Fault
import ModelGateway.Record.Compare

/-!
# Sorting records

An `orderBy` argument is a list of sort keys, most significant first. Sorting is stable: each record
moves left past those that it precedes and no further.
-/

namespace ModelGateway

/-- One entry of an ordering. -/
structure SortKey where
  field : String
  descending : Bool
  /-- Whether null comes before the other values. -/
  nullsFirst : Bool
deriving DecidableEq, Repr

namespace SortKey

/-- The direction that an ordering gives for a field, and where it puts nulls. -/
def spec : Json → String × Option String
  | .str direction => (direction, none)
  | .obj options =>
    (((Entries.get? options "sort").bind Json.asString?).getD "asc",
      (Entries.get? options "nulls").bind Json.asString?)
  | _ => ("", none)

/-- Reads one entry of an ordering. Nulls come last, and first in a descending order. -/
def ofEntry (field : String) (value : Json) : Except Fault SortKey :=
  let (direction, nulls) := spec value
  let key (descending : Bool) : SortKey :=
    { field, descending, nullsFirst := (nulls.map (· == "first")).getD descending }
  match direction with
  | "asc" => .ok (key false)
  | "desc" => .ok (key true)
  | _ => .error (.unknownDirection direction field)

/-- Reads one object of an ordering. -/
def ofObject : Json → Except Fault (List SortKey)
  | .obj entries => entries.mapM fun (field, value) => ofEntry field value
  | _ => .error .orderNotObject

/-- Reads an ordering: absent, null, an object or a list of objects. -/
def ofArgument : Option Json → Except Fault (List SortKey)
  | none | some .null => .ok []
  | some (.arr items) => do return (← items.mapM ofObject).flatten
  | some single => ofObject single

/-- The order of two records by this key alone. Values that are not comparable are tied. -/
def compare (key : SortKey) (a b : Record) : Ordering :=
  let x := Record.value a key.field
  let y := Record.value b key.field
  match x.isNull, y.isNull with
  | true, true => .eq
  | true, false => if key.nullsFirst then .lt else .gt
  | false, true => if key.nullsFirst then .gt else .lt
  | false, false =>
    let order := (compareValues x y).getD .eq
    if key.descending then order.swap else order

/-- The order of two records by the first key that tells them apart. -/
def compareAll : List SortKey → Record → Record → Ordering
  | [], _, _ => .eq
  | key :: rest, a, b => (key.compare a b).then (compareAll rest a b)

end SortKey

/-- Inserts a record into a list that is sorted from last to first, before those that it does not
precede. -/
def insertLast (precedes : Record → Record → Bool) (r : Record) : List Record → List Record
  | [] => [r]
  | last :: before =>
    if precedes r last then last :: insertLast precedes r before else r :: last :: before

/-- Sorts records by the keys, keeping the order of those that are tied. -/
def sortRecords (keys : List SortKey) (records : List Record) : List Record :=
  if keys.isEmpty then records
  else
    let precedes a b := SortKey.compareAll keys a b == .lt
    (records.foldl (fun sorted r => insertLast precedes r sorted) []).reverse

end ModelGateway
