import ModelGateway.Schema.Catalog

/-!
# Schema definition text

The catalog in the GraphQL definition language: scalars, enums and object types in the order of the
catalog, a blank line before each enum and each object type.
-/

namespace ModelGateway

/-- A field: its arguments in parentheses, if there are any, and its type. -/
def CatalogField.definition (f : CatalogField) : String :=
  let arguments :=
    if f.arguments.isEmpty then ""
    else
      "(" ++ String.intercalate ", " (f.arguments.map (· ++ ": " ++ TypeCatalog.anyScalar)) ++ ")"
  f.name ++ arguments ++ ": " ++ f.typeRef.text

namespace TypeCatalog

/-- A named block with one line for each member. -/
def block (keyword name : String) (members : List String) : String :=
  "\n" ++ keyword ++ " " ++ name ++ " \x7b\n"
    ++ String.join (members.map fun m => "  " ++ m ++ "\n") ++ "\x7d\n"

/-- The text of a catalog. -/
def definition (c : TypeCatalog) : String :=
  String.join (customScalars.map fun s => "scalar " ++ s.1 ++ "\n")
    ++ String.join (c.enums.map fun e => block "enum" e.name e.values)
    ++ String.join (c.objects.map fun o => block "type" o.name (o.fields.map (·.definition)))

end TypeCatalog

end ModelGateway
