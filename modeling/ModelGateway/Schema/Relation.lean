import ModelGateway.Document.Key
import ModelGateway.Json.Basic
import ModelGateway.Text.Lower

/-!
# Relations of records

A relation of a record that the caller already has is read in two steps: the record is looked up
again by its key, then the relation is read from what was found. A model without identifying fields
has no key, and its relations cannot be read so.
-/

namespace ModelGateway

/-- How a record of a model is addressed by a `where`. -/
inductive RecordKey where
  /-- By one field. -/
  | single (field : String)
  /-- By several fields under the name of their key. -/
  | compound (name : String) (fields : List String)
deriving DecidableEq, Repr

namespace RecordKey

/-- The key of a model's records. -/
def ofModel? (m : Model) : Option RecordKey :=
  match m.identifyingFields with
  | [] => none
  | [f] => some (.single f.name)
  | fields => some (.compound (m.compoundKeyName fields) (fields.map (·.name)))

/-- The value of a key field, null if the record lacks it. -/
def part (record : Entries Json) (field : String) : Json :=
  (record.get? field).getD .null

/-- The `where` that addresses a record. -/
def filter (record : Entries Json) : RecordKey → Json
  | .single field => .obj [(field, part record field)]
  | .compound name fields =>
    .obj [(name, .obj (Entries.ofList (fields.map fun f => (f, part record f))))]

end RecordKey

/-- What it takes to read the relations of a model's records. -/
structure RelationReader where
  model : String
  delegate : String
  key : RecordKey
  /-- The names of the relations. -/
  relations : List String

namespace RelationReader

/-- The reader for a model that has a key. -/
def ofModel? (m : Model) : Option RelationReader :=
  (RecordKey.ofModel? m).map fun key =>
    { model := m.name, delegate := Text.lowerFirst m.name, key
      relations := m.relationFields.map (·.name) }

/-- Whether a field is a relation of the model. -/
def handles (r : RelationReader) (field : String) : Bool :=
  r.relations.contains field

/-- The arguments of the point lookup that finds a record again. -/
def lookup (r : RelationReader) (record : Entries Json) : Json :=
  .obj [("where", r.key.filter record)]

end RelationReader

end ModelGateway
