import ModelGateway.Record.Filter
import ModelGateway.Record.Page
import ModelGateway.Record.Sort
import ModelGateway.Store.Basic

/-!
# Reading the store

Selecting rows by `where`, `orderBy`, `cursor`, `distinct`, `skip` and `take`; following relations
from either side; shaping a record by `select` and `include`, which may nest through relations.
-/

namespace ModelGateway

namespace Table

/-- The records that arguments select, in the order that they ask for; with a scope, only those that
pass it. -/
def select (t : Table) (args : Json) (scope : Option Filter) : Except Fault (List Record) := do
  let asked ← Filter.ofArgument t.model (args.get? "where")
  let filter := match scope with
    | some scope => Filter.and [scope, asked]
    | none => asked
  let found := t.records.filter filter.matches
  let keys ← SortKey.ofArgument (args.get? "orderBy")
  let sorted := sortRecords keys found
  let start ← match args.get? "cursor" with
    | none | some .null => pure sorted
    | some cursor => do
      let cursor ← Filter.ofJson t.model cursor
      pure (sorted.dropWhile fun r => !cursor.matches r)
  paginate (distinct (fieldList (args.get? "distinct")) start) args

/-- The rows that pass a `where` argument, with their keys. -/
def findRows (t : Table) (condition : Option Json) : Except Fault (List (RowKey × Row)) := do
  let filter ← Filter.ofArgument t.model condition
  return t.rows.filter fun e => filter.matches e.2.data

/-- The first row that passes a `where` argument. -/
def findRow (t : Table) (condition : Option Json) : Except Fault (Option (RowKey × Row)) :=
  (t.findRows condition).map List.head?

/-- All columns of a record in declaration order. -/
def columns (t : Table) (r : Record) : Entries Json :=
  Entries.ofList (t.model.scalarFields.map fun f => (f.name, Record.value r f.name))

end Table

/-! ## Relations -/

/-- What a relation of a record leads to. -/
inductive Related where
  | many (target : Table) (records : List Record)
  | one (target : Table) (record : Option Record)

namespace Store

/-- Whether a field of the target holds the foreign key of a relation that `field` of `source` is
the other side of. -/
def isOwningSide (source : Model) (field : Field) (target : Model) (f : Field) : Bool :=
  f.relationName == field.relationName && f.typeName == source.name && !f.fromFields.isEmpty
    && !(target.name == source.name && f.name == field.name)

/-- The columns that a relation joins: those of the target, each with the one of the source. -/
def joinPairs (source : Model) (field : Field) (target : Model) :
    Except Fault (List (String × String)) :=
  if field.fromFields.isEmpty then
    match target.fields.find? (isOwningSide source field target) with
    | some back => .ok (back.fromFields.zip back.toFields)
    | none => .error (.noForeignKey source.name field.name)
  else .ok (field.toFields.zip field.fromFields)

/-- The columns of the target with the values that a record joins them to; none if one is null. -/
def joinValues? (r : Record) : List (String × String) → Option (List (String × Json))
  | [] => some []
  | (target, source) :: rest =>
    match Record.value r source with
    | .null => none
    | value => (joinValues? r rest).map ((target, value) :: ·)

/-- The records of a list relation, or the record of a single one. Only a list relation honours the
arguments that select. -/
def related (s : Store) (t : Table) (r : Record) (field : Field) (args : Json) :
    Except Fault Related := do
  let target ← s.tableOf field.typeName
  let pairs ← joinPairs t.model field target.model
  match joinValues? r pairs with
  | none => return if field.isList then .many target [] else .one target none
  | some values =>
    let scope := Filter.allEqual values
    if field.isList then return .many target (← target.select args (some scope))
    else return .one target (← target.select .null (some scope)).head?

/-- The number of records of a list relation. -/
def relatedCount (s : Store) (t : Table) (r : Record) (field : Field) : Except Fault Nat := do
  match ← s.related t r field .null with
  | .many _ records => return records.length
  | .one _ _ => return 0

/-! ## Shapes -/

/-- The list relations that a count selects: those named, or all of them. -/
def countedFields (t : Table) (wanted : Json) : Except Fault (List Field) :=
  match wanted.get? "select" with
  | some (.obj names) =>
    (names.filter (isWanted ·.2)).mapM fun (name, _) =>
      match t.model.field? name with
      | some f => if f.isRelation && f.isList then .ok f else .error (.notListRelation name)
      | none => .error (.notListRelation name)
  | _ => .ok (t.model.relationFields.filter (·.isList))

/-- The numbers of related records. -/
def relationCounts (s : Store) (t : Table) (r : Record) (wanted : Json) : Except Fault Json := do
  let fields ← countedFields t wanted
  let counts ← fields.mapM fun f => do return (f.name, Json.ofNat (← s.relatedCount t r f))
  return .obj (Entries.ofList counts)

/-- The value of a relation, given how its records are shaped. -/
def shapeRelated (shape : Table → Record → Except Fault Json) : Related → Except Fault Json
  | .many target records => (records.mapM (shape target)).map .arr
  | .one target (some r) => shape target r
  | .one _ none => .ok .null

/-- The value under a selected name, given how related records are shaped. -/
def selectedValue (s : Store) (t : Table) (r : Record) (name : String) (wanted : Json)
    (shape : Table → Record → Except Fault Json) : Except Fault Json :=
  match t.model.field? name with
  | some field =>
    if field.isRelation then do shapeRelated shape (← s.related t r field wanted)
    else .ok (Record.value r name)
  | none =>
    if name = "_count" then s.relationCounts t r wanted
    else .error (.unknownSelection t.model.name name)

/-- The shape of a record: what `select` names, or all columns and what `include` names. -/
def shapeOf (t : Table) (r : Record) (selected included : Option (Except Fault (Entries Json))) :
    Except Fault Json :=
  match selected, included with
  | some chosen, _ => chosen.map .obj
  | none, some more => more.map fun more => .obj (Entries.extend (t.columns r) more)
  | none, none => .ok (.obj (t.columns r))

mutual

/-- A record as `select` and `include` of the arguments shape it. -/
def project (s : Store) (t : Table) (r : Record) : Json → Except Fault Json
  | .obj args => shapeOf t r (s.selectedPart t r args) (s.includedPart t r args)
  | _ => .ok (.obj (t.columns r))
termination_by structural args => args

/-- The values of the names that are the entries of an object. -/
def chosenBy (s : Store) (t : Table) (r : Record) : Json → Option (Except Fault (Entries Json))
  | .obj chosen => some (s.chosenValues t r chosen)
  | _ => none
termination_by structural chosen => chosen

/-- The values of a list of selected names, each of which may say how its records are shaped. -/
def chosenValues (s : Store) (t : Table) (r : Record) :
    List (String × Json) → Except Fault (Entries Json)
  | [] => .ok []
  | (name, wanted) :: rest =>
    if isWanted wanted then do
      let value ← s.selectedValue t r name wanted fun target related =>
        s.project target related wanted
      return (name, value) :: (← s.chosenValues t r rest)
    else s.chosenValues t r rest
termination_by structural chosen => chosen

/-- The values that the `select` among some arguments names, if it is an object. -/
def selectedPart (s : Store) (t : Table) (r : Record) :
    List (String × Json) → Option (Except Fault (Entries Json))
  | [] => none
  | (name, value) :: rest =>
    if name = "select" then s.chosenBy t r value else s.selectedPart t r rest
termination_by structural args => args

/-- The values that the `include` among some arguments names, if it is an object. -/
def includedPart (s : Store) (t : Table) (r : Record) :
    List (String × Json) → Option (Except Fault (Entries Json))
  | [] => none
  | (name, value) :: rest =>
    if name = "include" then s.chosenBy t r value else s.includedPart t r rest
termination_by structural args => args

end

/-- Records as `select` and `include` of the arguments shape them. -/
def projectAll (s : Store) (t : Table) (records : List Record) (args : Json) : Except Fault Json :=
  (records.mapM (s.project t · args)).map .arr

/-- The value of a relation of a record. -/
def readRelation (s : Store) (t : Table) (r : Record) (field : Field) (args : Json) :
    Except Fault Json := do
  shapeRelated (fun target related => s.project target related args) (← s.related t r field args)

end Store

end ModelGateway
