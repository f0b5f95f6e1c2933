import ModelGateway.Record.Aggregate
import ModelGateway.Store.Read

/-!
# Writing to the store

Creating and updating single records: relation arguments fill foreign-key columns, defaults fill
what is not given, and a record is stored only if no other row has equal values in a unique group of
columns. A write that fails stores nothing; it may still have used up numbers of the table's counter
or values of the supply. The same holds of a write that panics.
-/

namespace ModelGateway

/-- A store in the course of an operation, with the number of values drawn from the supply. -/
structure Progress where
  store : Store
  drawn : Nat

/-! ## Unique groups -/

namespace Table

/-- The groups of columns in which no two rows may have equal values: each id or unique column, and
the columns of the primary key. -/
def uniqueGroups (m : Model) : List (List String) :=
  ((m.fields.filter fun f => (f.isId || f.isUnique) && !f.isRelation).map fun f => [f.name])
    ++ (match m.primaryKey with
      | some key => [key.fields]
      | none => [])

/-- Whether two records have equal values that are not null in every column of a group. -/
def clash (group : List String) (mine theirs : Record) : Bool :=
  group.all fun column =>
    let value := Record.value mine column
    !value.isNull &&
      (match Entries.get? theirs column with
        | some other => valuesEqual value other
        | none => false)

/-- The first unique group in which a record clashes with a row, other than the row it replaces. -/
def clashingGroup? (t : Table) (r : Record) (replacing : Option RowKey) : Option (List String) :=
  (t.rows.filter fun e => replacing ≠ some e.1).findSome? fun e =>
    (uniqueGroups t.model).find? fun group => clash group r e.2.data

/-- Stores a record, in place of another row if one is to be replaced. -/
def store (t : Table) (r : Record) (sequence : Nat) (replacing : Option RowKey) :
    Except Fault Table :=
  match t.clashingGroup? r replacing with
  | some group => .error (.notUnique group)
  | none =>
    let key := t.keyFor r sequence
    let cleared := match replacing with
      | some old => if old = key then t else t.remove old
      | none => t
    .ok (cleared.put key { sequence, data := r })

end Table

/-! ## Relation arguments -/

/-- A part of a key, given directly or one level inside a compound key. -/
def keyPart? (input : Json) (name : String) : Option Json :=
  match input with
  | .obj entries =>
    match Entries.get? entries name with
    | some value => some value
    | none => (Entries.values entries).findSome? fun inner => inner.get? name
  | _ => none

namespace Store

/-- The values that a connection gives to the columns of a foreign key, with the columns of the
other model that they refer to. -/
def connectValues (target : Json) :
    List (String × String) → Except Fault (List (String × String × Json))
  | [] => .ok []
  | (column, referred) :: rest =>
    match keyPart? target referred with
    | none => .error (.connectPartMissing referred)
    | some value => do return (column, referred, value) :: (← connectValues target rest)

/-- The foreign-key columns that a relation argument sets: `connect` to those of an existing record,
`disconnect` to null. Only the side that holds the key can be written. -/
def foreignKey (s : Store) (field : Field) : Json → Except Fault (List (String × Json))
  | .obj ops =>
    if field.fromFields.isEmpty then .error (.notOwningSide field.name)
    else
      match Entries.get? ops "connect" with
      | some target => do
        let table ← s.tableOf field.typeName
        let values ← connectValues target (field.fromFields.zip field.toFields)
        let filter := Filter.allEqual (values.map (·.2))
        if table.records.any filter.matches then
          return values.map fun (column, _, value) => (column, value)
        else .error (.noConnectTarget field.typeName (field.relationName.getD ""))
      | none =>
        if ((Entries.get? ops "disconnect").map isWanted).getD false then
          .ok (field.fromFields.map (·, .null))
        else .error (.nestedWrite ((ops.head?.map (·.1)).getD "") field.name)
  | _ => .error (.relationNotObject field.name)

/-- The foreign-key columns that the relation arguments of a creation set. -/
def foreignKeys (s : Store) (data : Entries Json) : List Field → Except Fault (Entries Json)
  | [] => .ok []
  | field :: rest =>
    match data.get? field.name with
    | none => s.foreignKeys data rest
    | some argument => do
      let columns ← s.foreignKey field argument
      return columns ++ (← s.foreignKeys data rest)

end Store

/-! ## Creating -/

/-- What filling the columns of a new record uses up: numbers of the table's counter and values of
the supply. -/
structure Draft where
  counter : Int
  drawn : Nat

namespace Draft

/-- The next text of the supply. -/
def fresh (texts : Nat → String) (d : Draft) : Draft × Except Fault (Option Json) :=
  ({ d with drawn := d.drawn + 1 }, .ok (some (.str (texts d.drawn))))

/-- The next number of the counter. The counter moves on in any case, and wraps around behind the
last 64-bit number. The number to give is a sum of its own, and that sum panics where 64 bits do not
hold it. -/
def nextNumber (d : Draft) : Draft × Except Fault (Option Json) :=
  ({ d with counter := wrapInt64 (d.counter + 1) },
    match int64? (d.counter + 1) with
    | some n => .ok (some (.ofInt n))
    | none => .error .counterOverflow)

/-- The default value of a column, if it has one. -/
def defaultValue (supply : Supply) (f : Field) (d : Draft) :
    Draft × Except Fault (Option Json) :=
  if f.isUpdatedAt then d.fresh supply.instant
  else
    match f.defaultFunction? with
    | some "autoincrement" => d.nextNumber
    | some "uuid" => d.fresh supply.uuid
    | some "cuid" => d.fresh supply.cuid
    | some "now" => d.fresh supply.instant
    | some _ => (d, .ok none)
    | none => (d, .ok (f.default.filter (!·.isObject)))

/-- The value of a column that is not given: its default, an empty list, or null unless the column
is required. -/
def absentValue (supply : Supply) (f : Field) (d : Draft) : Draft × Except Fault Json :=
  match d.defaultValue supply f with
  | (d, .error fault) => (d, .error fault)
  | (d, .ok (some value)) => (d, .ok value)
  | (d, .ok none) =>
    if f.isList then (d, .ok (.arr []))
    else if f.isRequired then (d, .error (.columnMissing f.name))
    else (d, .ok .null)

/-- The value of a column that is given. A list may be wrapped in `set`. A number for an automatic
column moves the counter up to it. -/
def givenValue (f : Field) (value : Json) (d : Draft) : Draft × Json :=
  match (if f.isList then value.get? "set" else none) with
  | some list => (d, list)
  | none =>
    match (if f.isAutoincrement then value.asInt64? else none) with
    | some n => ({ d with counter := max d.counter n }, value)
    | none => (d, value)

/-- Fills the columns of a record one after another. -/
def fill (supply : Supply) (data connected : Entries Json) :
    List Field → Record → Draft → Draft × Except Fault Record
  | [], r, d => (d, .ok r)
  | f :: rest, r, d =>
    match (match data.get? f.name with
      | some value => some value
      | none => connected.get? f.name) with
    | some value =>
      let (d, value) := d.givenValue f value
      fill supply data connected rest (Entries.insert r f.name value) d
    | none =>
      match d.absentValue supply f with
      | (d, .error e) => (d, .error e)
      | (d, .ok value) => fill supply data connected rest (Entries.insert r f.name value) d

end Draft

namespace Progress

/-- Ends a step with a fault. -/
def fail {α : Type} (p : Progress) (fault : Fault) : Progress × Except Fault α :=
  (p, .error fault)

/-- Stores a new record in a table whose draft is complete. The sequence number is used up even if
the record clashes. -/
def append (p : Progress) (t : Table) (r : Record) : Progress × Except Fault Record :=
  let sequence := t.nextSequence
  let t := { t with nextSequence := sequence + 1 }
  match t.store r sequence none with
  | .error e => ({ p with store := p.store.setTable t }, .error e)
  | .ok t => ({ p with store := p.store.setTable t }, .ok r)

/-- Creates a record from the entries of its data. -/
def createFrom (supply : Supply) (p : Progress) (t : Table) (data : Entries Json) :
    Progress × Except Fault Record :=
  match data.names.find? fun name => (t.model.field? name).isNone with
  | some unknown => p.fail (.unknownData t.model.name unknown)
  | none =>
    match p.store.foreignKeys data t.model.relationFields with
    | .error e => p.fail e
    | .ok pairs =>
      let draft : Draft := { counter := t.counter, drawn := p.drawn }
      let (draft, filled) :=
        draft.fill supply data (Entries.ofList pairs) t.model.scalarFields []
      let t := { t with counter := draft.counter }
      let p := { store := p.store.setTable t, drawn := draft.drawn : Progress }
      match filled with
      | .error e => p.fail e
      | .ok r => p.append t r

/-- Creates a record of a model. -/
def create (supply : Supply) (p : Progress) (model : String) (data : Json) :
    Progress × Except Fault Record :=
  match p.store.tableOf model with
  | .error e => p.fail e
  | .ok t =>
    match data with
    | .obj entries => p.createFrom supply t entries
    | _ => p.fail .dataNotObject

/-- Creates records one after another and stops at the first fault; clashes may be skipped. -/
def createEach (supply : Supply) (skipDuplicates : Bool) (model : String) :
    List Json → Progress → Progress × Except Fault (List Record)
  | [], p => (p, .ok [])
  | item :: rest, p =>
    match p.create supply model item with
    | (p, .ok r) =>
      match createEach supply skipDuplicates model rest p with
      | (p, .ok created) => (p, .ok (r :: created))
      | (p, .error e) => (p, .error e)
    | (p, .error e) =>
      if skipDuplicates && e.kind == .uniqueConstraint then
        createEach supply skipDuplicates model rest p
      else (p, .error e)

end Progress

/-! ## Updating -/

/-- The operations of arithmetic on a column. -/
inductive Arithmetic where
  | increment
  | decrement
  | multiply
  | divide
deriving DecidableEq, Repr

namespace Arithmetic

/-- The arithmetic that a name means. -/
def ofName? : String → Option Arithmetic
  | "increment" => some .increment
  | "decrement" => some .decrement
  | "multiply" => some .multiply
  | "divide" => some .divide
  | _ => none

/-- The result on signed 64-bit whole numbers; none beyond them and for a zero divisor. -/
def onInts? (op : Arithmetic) (a b : Int) : Option Int :=
  match op with
  | .increment => int64? (a + b)
  | .decrement => int64? (a - b)
  | .multiply => int64? (a * b)
  | .divide => if b = 0 then none else int64? (a.tdiv b)

/-- The result on doubles; none if it is not finite. -/
def onDoubles? (op : Arithmetic) (a b : Double) : Option Double :=
  match op with
  | .increment => a.add? b
  | .decrement => a.sub? b
  | .multiply => a.mul? b
  | .divide => a.div? b

/-- The new value of a column: exact on two whole numbers, else as doubles. -/
def apply (op : Arithmetic) (column : String) (current operand : Json) : Except Fault Json :=
  match current.asInt64?, operand.asInt64? with
  | some a, some b =>
    match op.onInts? a b with
    | some n => .ok (.ofInt n)
    | none => .error (.overflow column)
  | _, _ =>
    match current.asNumber?, operand.asNumber? with
    | some a, some b => .ok (.ofDouble? (op.onDoubles? a.toDouble b.toDouble))
    | _, _ => .error (.notNumeric column)

end Arithmetic

/-- The new value of a column under an update operation. -/
def applyUpdate (f : Field) (current : Json) : List (String × Json) → Except Fault Json
  | [(operation, operand)] =>
    match operation with
    | "set" => .ok operand
    | "push" =>
      let list := current.asItems?.getD []
      match operand with
      | .arr items => .ok (.arr (list ++ items))
      | item => .ok (.arr (list ++ [item]))
    | _ =>
      match Arithmetic.ofName? operation with
      | some op => op.apply f.name current operand
      | none => .error (.unknownUpdate operation f.name)
  | _ => .error (.notOneUpdate f.name)

namespace Store

/-- Applies the entries of an update one after another. -/
def applyData (s : Store) (m : Model) : List (String × Json) → Record → Except Fault Record
  | [], r => .ok r
  | (name, value) :: rest, r =>
    match m.field? name with
    | none => .error (.unknownData m.name name)
    | some f =>
      if f.isRelation then do
        let columns ← s.foreignKey f value
        s.applyData m rest (Entries.extend r columns)
      else
        match value with
        | .obj ops =>
          if f.typeName = "Json" then s.applyData m rest (Entries.insert r name value)
          else do
            let next ← applyUpdate f (Record.value r name) ops
            s.applyData m rest (Entries.insert r name next)
        | _ => s.applyData m rest (Entries.insert r name value)

end Store

/-- Stamps the columns that hold the time of the last update, except those that were given. -/
def stampUpdated (supply : Supply) (data : Entries Json) : List Field → Record → Nat → Nat × Record
  | [], r, drawn => (drawn, r)
  | f :: rest, r, drawn =>
    if f.isUpdatedAt && !data.contains f.name then
      let stamped := Entries.insert r f.name (.str (supply.instant drawn))
      stampUpdated supply data rest stamped (drawn + 1)
    else stampUpdated supply data rest r drawn

namespace Progress

/-- Updates a row from the entries of its data. -/
def updateFrom (supply : Supply) (p : Progress) (t : Table) (key : RowKey) (row : Row)
    (data : Entries Json) : Progress × Except Fault Record :=
  match p.store.applyData t.model data row.data with
  | .error e => p.fail e
  | .ok r =>
    let (drawn, r) := stampUpdated supply data t.model.fields r p.drawn
    let p := { p with drawn }
    match t.store r row.sequence (some key) with
    | .error e => p.fail e
    | .ok t => ({ p with store := p.store.setTable t }, .ok r)

/-- Updates a row of a model that is stored under a key. -/
def update (supply : Supply) (p : Progress) (model : String) (key : RowKey) (row : Row)
    (data : Json) : Progress × Except Fault Record :=
  match p.store.tableOf model with
  | .error e => p.fail e
  | .ok t =>
    match data with
    | .obj entries => p.updateFrom supply t key row entries
    | _ => p.fail .dataNotObject

/-- Updates rows one after another, each from the state in which it was found, and stops at the
first fault. -/
def updateEach (supply : Supply) (model : String) (data : Json) :
    List (RowKey × Row) → Progress → Progress × Except Fault (List Record)
  | [], p => (p, .ok [])
  | (key, row) :: rest, p =>
    match p.update supply model key row data with
    | (p, .error e) => (p, .error e)
    | (p, .ok r) =>
      match updateEach supply model data rest p with
      | (p, .ok updated) => (p, .ok (r :: updated))
      | (p, .error e) => (p, .error e)

end Progress

end ModelGateway
