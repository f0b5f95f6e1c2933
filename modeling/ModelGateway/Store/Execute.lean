import ModelGateway.Client.Operation
import ModelGateway.Store.Write

/-!
# The operations of the store

`Store.execute` answers an operation on a model's delegate, `Store.relation` reads a relation of the
record that a point lookup finds, `Store.seed` creates the records of a seed file. Each gives the
store that it leaves, also with a fault.
-/

namespace ModelGateway

namespace Store

/-- Answers without changing the store. -/
def answer {α : Type} (s : Store) (result : Except Fault α) : Store × Except Fault α :=
  (s, result)

/-- Answers with the outcome of some writing. -/
def answerWith {α β : Type} (outcome : Progress × Except Fault α)
    (render : Store → α → Except Fault β) : Store × Except Fault β :=
  match outcome with
  | (p, .error e) => (p.store, .error e)
  | (p, .ok value) => (p.store, render p.store value)

/-- The table of a model in a later state of the store. -/
def current (s : Store) (t : Table) : Table :=
  (s.tables.get? t.model.name).getD t

/-- A record shaped by the arguments. -/
def renderOne (t : Table) (args : Json) (s : Store) (r : Record) : Except Fault Json :=
  s.project (s.current t) r args

/-- Records shaped by the arguments. -/
def renderAll (t : Table) (args : Json) (s : Store) (records : List Record) : Except Fault Json :=
  s.projectAll (s.current t) records args

/-- A count of records. -/
def renderCount (_ : Store) (records : List Record) : Except Fault Json :=
  .ok (.obj [("count", .ofNat records.length)])

/-- An argument, null if it is absent. -/
def argument (args : Json) (name : String) : Json :=
  (args.get? name).getD .null

/-! ## Reads -/

/-- The first record that the arguments select, or null. -/
def findFirst (s : Store) (t : Table) (args : Json) : Except Fault Json := do
  match (← t.select args none).head? with
  | some r => s.project t r args
  | none => return .null

/-- The first record that the arguments select. -/
def findFirstOrFail (s : Store) (t : Table) (args : Json) : Except Fault Json := do
  let found ← s.findFirst t args
  if found.isNull then .error (.noRecord t.model.name) else return found

/-- The records that the arguments select. -/
def findMany (s : Store) (t : Table) (args : Json) : Except Fault Json := do
  s.projectAll t (← t.select args none) args

/-- The number of records that the arguments select. -/
def count (t : Table) (args : Json) : Except Fault Json := do
  return countRecords (← t.select args none) (args.get? "select")

/-- The aggregates of the records that the arguments select. -/
def aggregate (t : Table) (args : Json) : Except Fault Json := do
  aggregateRecords (← t.select args none) args

/-- The groups of the records that `where` selects, with their aggregates; the ordering and the page
are of groups. -/
def groups (t : Table) (args : Json) : Except Fault Json := do
  if !(argument args "having").isNull then throw .groupCondition
  let found ← t.select (.obj [("where", argument args "where")]) none
  let rows ← groupBy (fieldList (args.get? "by")) found args
  let keys ← SortKey.ofArgument (args.get? "orderBy")
  let page ← paginate (sortRecords keys rows) args
  return .arr (page.map .obj)

/-! ## Writes -/

/-- The records to create: a list, or a single object. -/
def creations : Option Json → Except Fault (List Json)
  | some (.arr items) => .ok items
  | some (.obj entries) => .ok [.obj entries]
  | _ => .error .dataMissing

/-- Creates the records of `data`. -/
def createMany (supply : Supply) (s : Store) (t : Table) (args : Json) :
    Progress × Except Fault (List Record) :=
  let skip := ((args.get? "skipDuplicates").bind Json.asBool?).getD false
  match creations (args.get? "data") with
  | .error e => (⟨s, 0⟩, .error e)
  | .ok items => Progress.createEach supply skip t.model.name items ⟨s, 0⟩

/-- Updates the records that `where` selects. -/
def updateMany (supply : Supply) (s : Store) (t : Table) (args : Json) :
    Progress × Except Fault (List Record) :=
  match t.findRows (args.get? "where") with
  | .error e => (⟨s, 0⟩, .error e)
  | .ok rows => Progress.updateEach supply t.model.name (argument args "data") rows ⟨s, 0⟩

/-- Updates the first record that `where` selects. -/
def updateFirst (supply : Supply) (s : Store) (t : Table) (args : Json) :
    Progress × Except Fault Record :=
  match t.findRow (args.get? "where") with
  | .error e => (⟨s, 0⟩, .error e)
  | .ok none => (⟨s, 0⟩, .error .nothingToUpdate)
  | .ok (some (key, row)) =>
    Progress.update supply ⟨s, 0⟩ t.model.name key row (argument args "data")

/-- Updates the first record that `where` selects, or creates one. -/
def upsert (supply : Supply) (s : Store) (t : Table) (args : Json) :
    Progress × Except Fault Record :=
  match t.findRow (args.get? "where") with
  | .error e => (⟨s, 0⟩, .error e)
  | .ok (some (key, row)) =>
    Progress.update supply ⟨s, 0⟩ t.model.name key row (argument args "update")
  | .ok none => Progress.create supply ⟨s, 0⟩ t.model.name (argument args "create")

/-- Deletes the first record that `where` selects and answers with it. -/
def deleteFirst (s : Store) (t : Table) (args : Json) : Store × Except Fault Json :=
  match t.findRow (args.get? "where") with
  | .error e => s.answer (.error e)
  | .ok none => s.answer (.error .nothingToDelete)
  | .ok (some (key, row)) =>
    match s.project t row.data args with
    | .error e => s.answer (.error e)
    | .ok deleted => (s.setTable (t.remove key), .ok deleted)

/-- Deletes the records that `where` selects and answers with their number. -/
def deleteMany (s : Store) (t : Table) (args : Json) : Store × Except Fault Json :=
  match t.findRows (args.get? "where") with
  | .error e => s.answer (.error e)
  | .ok rows =>
    (s.setTable (rows.foldl (fun t e => t.remove e.1) t),
      .ok (.obj [("count", .ofNat rows.length)]))

/-! ## The client's operations -/

/-- Answers an operation on a table. -/
def executeOn (supply : Supply) (s : Store) (t : Table) (op : Operation) (args : Json) :
    Store × Except Fault Json :=
  match op with
  | .findUnique | .findFirst => s.answer (s.findFirst t args)
  | .findUniqueOrThrow | .findFirstOrThrow => s.answer (s.findFirstOrFail t args)
  | .findMany => s.answer (s.findMany t args)
  | .count => s.answer (count t args)
  | .aggregate => s.answer (aggregate t args)
  | .groupBy => s.answer (groups t args)
  | .create =>
    answerWith (Progress.create supply ⟨s, 0⟩ t.model.name (argument args "data"))
      (renderOne t args)
  | .createMany => answerWith (s.createMany supply t args) renderCount
  | .createManyAndReturn => answerWith (s.createMany supply t args) (renderAll t args)
  | .update => answerWith (s.updateFirst supply t args) (renderOne t args)
  | .updateMany => answerWith (s.updateMany supply t args) renderCount
  | .updateManyAndReturn => answerWith (s.updateMany supply t args) (renderAll t args)
  | .upsert => answerWith (s.upsert supply t args) (renderOne t args)
  | .delete => s.deleteFirst t args
  | .deleteMany => s.deleteMany t args
  | .findRaw | .aggregateRaw => s.answer (.error (.unsupportedOperation op.name))

/-- Answers an operation on a model's delegate. -/
def execute (supply : Supply) (s : Store) (delegate : String) (op : Operation) (args : Json) :
    Store × Except Fault Json :=
  match s.tableFor delegate with
  | .error e => s.answer (.error e)
  | .ok t => s.executeOn supply t op args

/-- Reads a relation of the first record that the arguments of a point lookup select, null if there
is none. -/
def relation (s : Store) (delegate : String) (lookup : Json) (field : String) (args : Json) :
    Except Fault Json := do
  let t ← s.tableFor delegate
  match t.model.field? field with
  | none => .error (.notRelation t.model.name field)
  | some f =>
    if f.isRelation then
      match ← t.findRow (lookup.get? "where") with
      | none => return .null
      | some (_, row) => s.readRelation t row.data f args
    else .error (.notRelation t.model.name field)

/-! ## Seeding -/

/-- Creates the records of one model; the number counts those created so far. -/
def seedModel (supply : Supply) (model : String) :
    List Json → Progress → Nat → Progress × Except Fault Nat
  | [], p, n => (p, .ok n)
  | item :: rest, p, n =>
    match p.create supply model item with
    | (p, .error e) => (p, .error e)
    | (p, .ok _) => seedModel supply model rest p (n + 1)

/-- Creates the records of every model in turn. -/
def seedModels (supply : Supply) :
    List (String × Json) → Progress → Nat → Progress × Except Fault Nat
  | [], p, n => (p, .ok n)
  | (model, records) :: rest, p, n =>
    match p.store.tableOf model with
    | .error e => (p, .error e)
    | .ok _ =>
      match records with
      | .arr items =>
        match seedModel supply model items p n with
        | (p, .error e) => (p, .error e)
        | (p, .ok n) => seedModels supply rest p n
      | _ => (p, .error (.seedNotList model))

/-- Creates the records of seed data, lists by model name, and answers with their number. -/
def seed (supply : Supply) (s : Store) (data : Json) : Store × Except Fault Nat :=
  match data with
  | .obj models => answerWith (seedModels supply models ⟨s, 0⟩ 0) fun _ n => .ok n
  | _ => s.answer (.error .seedNotObject)

end Store

end ModelGateway
