import ModelGateway.Client.Fault
import ModelGateway.Record.Compare

/-!
# Aggregates and groups

Counts, extremes, sums and averages of columns, over all records or over groups of records with
equal values. Nulls do not take part.
-/

namespace ModelGateway

/-- What an aggregate computes. -/
inductive Aggregate where
  | count
  | min
  | max
  | sum
  | avg
deriving DecidableEq, Repr

namespace Aggregate

/-- The aggregate that a name of the arguments means. -/
def ofName? : String → Option Aggregate
  | "_count" => some .count
  | "_min" => some .min
  | "_max" => some .max
  | "_sum" => some .sum
  | "_avg" => some .avg
  | _ => none

end Aggregate

/-- The values of a column that are not null. -/
def columnValues (records : List Record) (column : String) : List Json :=
  (records.filterMap (Entries.get? · column)).filter (!·.isNull)

/-- The number of records with a value in a column; under `_all`, of all records. -/
def countColumn (records : List Record) (column : String) : Nat :=
  if column = "_all" then records.length else (columnValues records column).length

/-- The number of records, or the counts of the columns that an object selects. -/
def countRecords (records : List Record) : Option Json → Json
  | some (.obj columns) =>
    .obj ((columns.filter (isWanted ·.2)).map fun (column, _) =>
      (column, Json.ofNat (countColumn records column)))
  | _ => .ofNat records.length

/-- The first value that no other value exceeds in the wanted direction. -/
def extreme (wanted : Ordering) (values : List Json) : Json :=
  let better (best : Option Json) (v : Json) : Option Json :=
    match best with
    | some b => if compareValues v b = some wanted then some v else some b
    | none => some v
  (values.foldl better none).getD .null

/-- The values as numbers. -/
def numbersOf (column : String) : List Json → Except Fault (List Number)
  | [] => .ok []
  | .num n :: rest => do return n :: (← numbersOf column rest)
  | _ :: _ => .error (.notNumeric column)

/-- The sum of whole numbers, none if a partial sum leaves the signed 64-bit numbers. -/
def sumInts? (ns : List Int) : Option Int :=
  ns.foldlM (fun total n => int64? (total + n)) 0

/-- The sum of numbers as doubles, added from left to right; none if it is not finite. -/
def sumDoubles? (ns : List Number) : Option Double :=
  ns.foldlM (fun total n => total.add? n.toDouble) (Double.zero true)

/-- The sum of a column: a whole number if all values are, else a double; null without values. -/
def sumColumn (column : String) (values : List Json) : Except Fault Json := do
  let ns ← numbersOf column values
  if ns.isEmpty then return .null
  match ns.mapM Number.toInt64? with
  | some ints =>
    match sumInts? ints with
    | some total => return .ofInt total
    | none => .error (.sumOverflow column)
  | none => return .ofDouble? (sumDoubles? ns)

/-- The average of a column as a double; null without values. -/
def averageColumn (column : String) (values : List Json) : Except Fault Json := do
  let ns ← numbersOf column values
  if ns.isEmpty then return .null
  return .ofDouble? (do (← sumDoubles? ns).div? (← Double.ofInt? ns.length))

/-- One aggregate of one column. -/
def aggregateColumn (records : List Record) (kind : Aggregate) (column : String) :
    Except Fault Json :=
  match kind with
  | .count => .ok (.ofNat (countColumn records column))
  | .min => .ok (extreme .lt (columnValues records column))
  | .max => .ok (extreme .gt (columnValues records column))
  | .sum => sumColumn column (columnValues records column)
  | .avg => averageColumn column (columnValues records column)

/-- One aggregate of the columns that a selection names. A count without columns counts records. -/
def aggregateGroup (records : List Record) (kind : Aggregate) : Json → Except Fault Json
  | .obj columns => do
    let wanted := columns.filter (isWanted ·.2)
    return .obj (← wanted.mapM fun (column, _) => do
      return (column, ← aggregateColumn records kind column))
  | _ =>
    match kind with
    | .count => .ok (.ofNat records.length)
    | _ => .error .aggregateWithoutFields

/-- The entries of the arguments that ask for an aggregate. -/
def aggregateRequests : Json → List (String × Aggregate × Json)
  | .obj entries => entries.filterMap fun (name, selection) =>
    (Aggregate.ofName? name).map fun kind => (name, kind, selection)
  | _ => []

/-- Every aggregate that the arguments ask for, in their order. -/
def aggregateEntries (records : List Record) (args : Json) : Except Fault (Entries Json) :=
  (aggregateRequests args).mapM fun (name, kind, selection) => do
    return (name, ← aggregateGroup records kind selection)

/-- Every aggregate that the arguments ask for, as an object. -/
def aggregateRecords (records : List Record) (args : Json) : Except Fault Json :=
  (aggregateEntries records args).map .obj

/-! ## Groups -/

/-- Records with equal values in the grouping columns: the values of the first, and all of them in
order. -/
structure RecordGroup where
  key : List Json
  members : List Record

/-- Item by item equality of column values, as far as both lists reach. -/
def allValuesEqual : List Json → List Json → Bool
  | x :: xs, y :: ys => valuesEqual x y && allValuesEqual xs ys
  | _, _ => true

/-- Adds a record to the first group whose key is equal to its own, else as a new group. -/
def addToGroups (key : List Json) (r : Record) : List RecordGroup → List RecordGroup
  | [] => [{ key, members := [r] }]
  | g :: rest =>
    if allValuesEqual g.key key then { g with members := g.members ++ [r] } :: rest
    else g :: addToGroups key r rest

/-- The groups of records by some columns, in the order of their first records. -/
def groupRecords (columns : List String) (records : List Record) : List RecordGroup :=
  records.foldl (fun groups r => addToGroups (columns.map (Record.value r)) r groups) []

/-- The row of a group: its key, then its aggregates. -/
def RecordGroup.row (columns : List String) (args : Json) (g : RecordGroup) :
    Except Fault Record := do
  let aggregates ← aggregateEntries g.members args
  return Entries.extend (Entries.ofList (columns.zip g.key)) aggregates

/-- The rows of the groups of records by at least one column. -/
def groupBy (columns : List String) (records : List Record) (args : Json) :
    Except Fault (List Record) :=
  if columns.isEmpty then .error .groupWithoutFields
  else (groupRecords columns records).mapM (·.row columns args)

end ModelGateway
