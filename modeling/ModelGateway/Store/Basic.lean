import ModelGateway.Client.Fault
import ModelGateway.Store.Table
import ModelGateway.Text.Lower

/-!
# The record store

One table for each model of a document. A table is addressed by the name of its model or by the name
of the model's delegate, which is the model's name with its first character in lower case.
-/

namespace ModelGateway

/-- Tables by model name, and model names by delegate. -/
structure Store where
  tables : Entries Table
  delegates : Entries String

namespace Store

/-- The store of a document's models without rows. -/
def ofModels (models : List Model) : Store where
  tables := Entries.ofList (models.map fun m => (m.name, Table.empty m))
  delegates := Entries.ofList (models.map fun m => (Text.lowerFirst m.name, m.name))

/-- The table of a model. -/
def tableOf (s : Store) (model : String) : Except Fault Table :=
  match s.tables.get? model with
  | some t => .ok t
  | none => .error (.unknownModel model)

/-- The table that a delegate addresses. -/
def tableFor (s : Store) (delegate : String) : Except Fault Table :=
  match (s.delegates.get? delegate).bind s.tables.get? with
  | some t => .ok t
  | none => .error (.unknownDelegate delegate)

/-- Replaces the table of a model. -/
def setTable (s : Store) (t : Table) : Store :=
  { s with tables := s.tables.insert t.model.name t }

/-- The number of records of a model, zero for an unknown one. -/
def rowCount (s : Store) (model : String) : Nat :=
  match s.tables.get? model with
  | some t => t.size
  | none => 0

end Store

/-- The values that no argument determines, by the number of such values used before: the current
instant, fresh identifiers of two forms. -/
structure Supply where
  instant : Nat → String
  uuid : Nat → String
  cuid : Nat → String

end ModelGateway
