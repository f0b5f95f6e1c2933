import ModelGateway.Document.Basic

/-!
# Keys of models

The fields that identify a record: those of the primary key in its order, then the other id fields
in declaration order, each name once. A key of several fields has a name of its own, under which a
`where` may hold all its parts.
-/

namespace ModelGateway.Model

/-- The fields of a list whose name has not been seen, each name once. -/
def firstOfEachName : List String → List Field → List Field
  | _, [] => []
  | seen, f :: rest =>
    if f.name ∈ seen then firstOfEachName seen rest
    else f :: firstOfEachName (f.name :: seen) rest

/-- The names in the primary key. -/
def primaryKeyNames (m : Model) : List String :=
  match m.primaryKey with
  | some key => key.fields
  | none => []

/-- The fields that identify a record; empty if records cannot be addressed. -/
def identifyingFields (m : Model) : List Field :=
  firstOfEachName [] (m.primaryKeyNames.filterMap m.field? ++ m.fields.filter (·.isId))

/-- The name of a key of several fields: the declared one, else the field names joined by `_`. -/
def compoundKeyName (m : Model) (fields : List Field) : String :=
  match m.primaryKey.bind (·.name) with
  | some name => name
  | none => String.intercalate "_" (fields.map (·.name))

end ModelGateway.Model
