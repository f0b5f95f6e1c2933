import ModelGateway.Gateway.Schema
import ModelGateway.Query.Introspection

/-!
# The types that requests see

A catalog as a type system: every argument is an untyped value that may be left out. If
introspection is allowed, the type system can be asked about itself.
-/

namespace ModelGateway

open Query (TypeSystem NamedType FieldDefinition InputDefinition)

namespace CatalogField

/-- The field as requests see it. -/
def toDefinition (f : CatalogField) : FieldDefinition :=
  { name := f.name
    arguments := f.arguments.eraseDups.map fun name =>
      { name, type := .named TypeCatalog.anyScalar, default := none }
    type := f.typeRef }

end CatalogField

namespace TypeCatalog

/-- The scalars as requests see them. -/
def scalarTypes : Entries NamedType :=
  builtinScalars.map (fun name => (name, .scalar none))
    ++ customScalars.map fun (name, description) => (name, .scalar (some description))

/-- The catalog as a type system. -/
def toTypeSystem (c : TypeCatalog) : TypeSystem :=
  { types := scalarTypes ++ c.enums.map (fun e => (e.name, NamedType.enum e.values.eraseDups))
      ++ c.objects.map fun o => (o.name, NamedType.object (o.fields.map (·.toDefinition)))
    queryType := Schema.queryType
    mutationType := (c.object? Schema.mutationType).map (·.name) }

end TypeCatalog

namespace Schema

/-- The type system of a schema. -/
def typeSystem (s : Schema) : TypeSystem :=
  if s.limits.introspection then Query.Introspection.extend s.catalog.toTypeSystem
  else s.catalog.toTypeSystem

end Schema

end ModelGateway
