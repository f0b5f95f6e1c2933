/-!
# Client errors

What a client may report, as a kind and a detail. The kind decides the wording around the detail,
the code and the category.
-/

namespace ModelGateway

/-- The kinds of client errors. -/
inductive ClientError.Kind where
  /-- A record that the operation needs does not exist. -/
  | notFound
  /-- A unique constraint refuses the write; the detail lists the fields. -/
  | uniqueConstraint
  /-- The arguments do not form a valid request. -/
  | validation
  /-- The database cannot be reached. -/
  | connection
  /-- The client does not support the operation. -/
  | unsupported
  /-- Any other failure. -/
  | internal
deriving DecidableEq, Repr

/-- The categories of client errors. -/
inductive ClientError.Category where
  | notFound
  | conflict
  | validation
  | infrastructure
  | internal
deriving DecidableEq, Repr

/-- A client error. -/
structure ClientError where
  kind : ClientError.Kind
  detail : String
deriving DecidableEq, Repr

namespace ClientError

namespace Kind

/-- The kinds. -/
def all : List Kind :=
  [.notFound, .uniqueConstraint, .validation, .connection, .unsupported, .internal]

/-- The name of a kind. -/
def name : Kind → String
  | .notFound => "NotFound"
  | .uniqueConstraint => "UniqueConstraint"
  | .validation => "Validation"
  | .connection => "Connection"
  | .unsupported => "Unsupported"
  | .internal => "Internal"

/-- The kind that has this name. -/
def ofName? (name : String) : Option Kind :=
  all.find? (·.name == name)

/-- The error code that callers match on. -/
def code : Kind → String
  | .notFound => "P2025"
  | .uniqueConstraint => "P2002"
  | .validation => "P2009"
  | .connection => "P1001"
  | .unsupported => "P2026"
  | .internal => "P5000"

/-- The category. -/
def category : Kind → Category
  | .notFound => .notFound
  | .uniqueConstraint => .conflict
  | .validation => .validation
  | .unsupported => .validation
  | .connection => .infrastructure
  | .internal => .internal

end Kind

/-- The name of a category. -/
def Category.name : Category → String
  | .notFound => "not_found"
  | .conflict => "conflict"
  | .validation => "validation"
  | .infrastructure => "infrastructure"
  | .internal => "internal"

/-- The error code. -/
def code (e : ClientError) : String := e.kind.code

/-- The category. -/
def category (e : ClientError) : Category := e.kind.category

/-- The wording. -/
def message (e : ClientError) : String :=
  match e.kind with
  | .uniqueConstraint => "Unique constraint failed on the fields: (" ++ e.detail ++ ")"
  | .connection => "Can't reach database server: " ++ e.detail
  | .unsupported => "Operation not supported: " ++ e.detail
  | .notFound | .validation | .internal => e.detail

end ClientError

end ModelGateway
