import ModelGateway.Document.Basic
import ModelGateway.Json.Reader
import ModelGateway.Json.Shape

/-!
# Reading introspection documents

The document as JSON. Unknown names are skipped, so that a newer mapper may say more; a known name
may not repeat. In an operation mapping every other name is an operation id, of which the last
occurrence counts and those without a field name are dropped.
-/

namespace ModelGateway

open Shape

namespace FieldKind

/-- The kind that a word of the document means. -/
def ofWord? : String → Option FieldKind
  | "scalar" => some .scalar
  | "object" => some .object
  | "enum" => some .enum
  | "unsupported" => some .unsupported
  | _ => none

end FieldKind

namespace TypeLocation

/-- The location that a word of the document means; other words are tolerated. -/
def ofWord : String → TypeLocation
  | "scalar" => .scalar
  | "inputObjectTypes" => .inputObjectTypes
  | "outputObjectTypes" => .outputObjectTypes
  | "enumTypes" => .enumTypes
  | "fieldRefTypes" => .fieldRefTypes
  | _ => .other

end TypeLocation

/-- Reads a field of a model. -/
def Field.read? : Reader Field := fun tree => do
  let parts ← parts? ["name", "kind", "type", "isList", "isRequired", "isUnique", "isId",
    "isUpdatedAt", "hasDefaultValue", "default", "relationName", "relationFromFields",
    "relationToFields"] tree
  let part := part parts
  return {
    name := ← required? string? (part 0)
    kind := ← optional? .scalar (word? FieldKind.ofWord?) (part 1)
    typeName := ← optional? "" string? (part 2)
    isList := ← optional? false bool? (part 3)
    isRequired := ← optional? false bool? (part 4)
    isUnique := ← optional? false bool? (part 5)
    isId := ← optional? false bool? (part 6)
    isUpdatedAt := ← optional? false bool? (part 7)
    hasDefault := ← optional? false bool? (part 8)
    default := ← optional? none nullableValue? (part 9)
    relationName := ← optional? none (nullable? string?) (part 10)
    fromFields := ← optional? [] (list? string?) (part 11)
    toFields := ← optional? [] (list? string?) (part 12) }

/-- Reads a primary key. -/
def PrimaryKey.read? : Reader PrimaryKey := fun tree => do
  let parts ← parts? ["name", "fields"] tree
  return {
    name := ← optional? none (nullable? string?) (part parts 0)
    fields := ← required? (list? string?) (part parts 1) }

/-- Reads a model. -/
def Model.read? : Reader Model := fun tree => do
  let parts ← parts? ["name", "fields", "primaryKey"] tree
  return {
    name := ← required? string? (part parts 0)
    fields := ← required? (list? Field.read?) (part parts 1)
    primaryKey := ← optional? none (nullable? PrimaryKey.read?) (part parts 2) }

/-- Reads a type reference. -/
def OutputType.read? : Reader OutputType := fun tree => do
  let parts ← parts? ["type", "namespace", "location", "isList"] tree
  return {
    typeName := ← required? string? (part parts 0)
    group := ← optional? none (nullable? string?) (part parts 1)
    location := ← optional? .other (word? (some ∘ TypeLocation.ofWord)) (part parts 2)
    isList := ← optional? false bool? (part parts 3) }

/-- Reads the name of an argument. -/
def OutputField.readArgument? : Reader String := fun tree => do
  let parts ← parts? ["name"] tree
  required? string? (part parts 0)

/-- Reads a field of an output type. -/
def OutputField.read? : Reader OutputField := fun tree => do
  let parts ← parts? ["name", "args", "isNullable", "outputType"] tree
  return {
    name := ← required? string? (part parts 0)
    arguments := ← optional? [] (list? OutputField.readArgument?) (part parts 1)
    isNullable := ← optional? false bool? (part parts 2)
    type := ← required? OutputType.read? (part parts 3) }

/-- Reads an output object type. -/
def ObjectType.read? : Reader ObjectType := fun tree => do
  let parts ← parts? ["name", "fields"] tree
  return {
    name := ← required? string? (part parts 0)
    fields := ← required? (list? OutputField.read?) (part parts 1) }

/-- Reads an enum. -/
def EnumType.read? : Reader EnumType := fun tree => do
  let parts ← parts? ["name", "values"] tree
  return {
    name := ← required? string? (part parts 0)
    values := ← required? (list? string?) (part parts 1) }

/-- Reads two groups of types. -/
def TypeGroups.read? {α : Type} (type? : Reader α) : Reader (TypeGroups α) := fun tree => do
  let parts ← parts? ["prisma", "model"] tree
  return {
    engine := ← optional? [] (list? type?) (part parts 0)
    model := ← optional? [] (list? type?) (part parts 1) }

/-- Reads an operation mapping. -/
def OperationMapping.read? : Reader OperationMapping
  | .obj _ entries => do
    let parts ← named? ["model", "plural"] entries
    let others := entries.filter fun e => e.1 ≠ some "model" ∧ e.1 ≠ some "plural"
    let pairs ← others.mapM fun e => do return (← e.1, ← value? e.2)
    let operations := (Entries.ofList pairs).filterMap fun (id, field) =>
      field.asString?.map (id, ·)
    return {
      model := ← required? string? (part parts 0)
      plural := ← optional? none (nullable? string?) (part parts 1)
      operations }
  | _ => none

/-- Reads the models. -/
def Document.readModels? : Reader (List Model) := fun tree => do
  let parts ← parts? ["models"] tree
  optional? [] (list? Model.read?) (part parts 0)

/-- Reads the output types and the enums. -/
def Document.readTypes? : Reader (TypeGroups ObjectType × TypeGroups EnumType) := fun tree => do
  let parts ← parts? ["outputObjectTypes", "enumTypes"] tree
  return (← required? (TypeGroups.read? ObjectType.read?) (part parts 0),
    ← optional? ⟨[], []⟩ (TypeGroups.read? EnumType.read?) (part parts 1))

/-- Reads the operations without a model. -/
def Document.readOthers? : Reader (List String × List String) := fun tree => do
  let parts ← parts? ["read", "write"] tree
  return (← optional? [] (list? string?) (part parts 0),
    ← optional? [] (list? string?) (part parts 1))

/-- Reads the operation mappings and the operations without a model. -/
def Document.readMappings? :
    Reader (List OperationMapping × List String × List String) := fun tree => do
  let parts ← parts? ["modelOperations", "otherOperations"] tree
  return (← required? (list? OperationMapping.read?) (part parts 0),
    ← optional? ([], []) Document.readOthers? (part parts 1))

/-- Reads a document, without checking what its sections say about each other. -/
def Document.read? : Reader Document := fun tree => do
  let parts ← parts? ["datamodel", "schema", "mappings"] tree
  let models ← required? Document.readModels? (part parts 0)
  let (outputs, enums) ← required? Document.readTypes? (part parts 1)
  let (mappings, otherReads, otherWrites) ← required? Document.readMappings? (part parts 2)
  return { models, outputs, enums, mappings, otherReads, otherWrites }

end ModelGateway
