import ModelGateway.Client.Error

/-!
# Client operations

The methods of a model delegate, and the operation ids of a document that stand for them. An id may
name a single-record write with a trailing `One`, which the method drops.
-/

namespace ModelGateway

/-- A method of a model delegate. -/
inductive Operation where
  | findUnique
  | findUniqueOrThrow
  | findFirst
  | findFirstOrThrow
  | findMany
  | create
  | createMany
  | createManyAndReturn
  | update
  | updateMany
  | updateManyAndReturn
  | upsert
  | delete
  | deleteMany
  | aggregate
  | groupBy
  | count
  | findRaw
  | aggregateRaw
deriving DecidableEq, Repr

namespace Operation

/-- All operations. -/
def all : List Operation :=
  [.findUnique, .findUniqueOrThrow, .findFirst, .findFirstOrThrow, .findMany, .create, .createMany,
    .createManyAndReturn, .update, .updateMany, .updateManyAndReturn, .upsert, .delete, .deleteMany,
    .aggregate, .groupBy, .count, .findRaw, .aggregateRaw]

/-- The name of the method. -/
def name : Operation → String
  | .findUnique => "findUnique"
  | .findUniqueOrThrow => "findUniqueOrThrow"
  | .findFirst => "findFirst"
  | .findFirstOrThrow => "findFirstOrThrow"
  | .findMany => "findMany"
  | .create => "create"
  | .createMany => "createMany"
  | .createManyAndReturn => "createManyAndReturn"
  | .update => "update"
  | .updateMany => "updateMany"
  | .updateManyAndReturn => "updateManyAndReturn"
  | .upsert => "upsert"
  | .delete => "delete"
  | .deleteMany => "deleteMany"
  | .aggregate => "aggregate"
  | .groupBy => "groupBy"
  | .count => "count"
  | .findRaw => "findRaw"
  | .aggregateRaw => "aggregateRaw"

/-- The operation whose method has this name. -/
def ofName? (name : String) : Option Operation :=
  all.find? (·.name == name)

/-- An operation id without a trailing `One`. -/
def withoutOne (id : String) : String :=
  let chars := id.toList
  if ['O', 'n', 'e'].isSuffixOf chars then String.ofList (chars.take (chars.length - 3)) else id

/-- The operation that an id of a document stands for. -/
def ofId? (id : String) : Option Operation :=
  ofName? (withoutOne id)

/-- The error for a name that no method has. -/
def unknown (name : String) : ClientError :=
  { kind := .unsupported, detail := s!"unknown operation `{name}`" }

/-- The operation whose method has this name, or an error. -/
def ofName (name : String) : Except ClientError Operation :=
  match ofName? name with
  | some op => .ok op
  | none => .error (unknown name)

/-- The operation that an id stands for, or an error. -/
def ofId (id : String) : Except ClientError Operation :=
  ofName (withoutOne id)

/-- Whether the operation takes the caller's selection as an argument. -/
def isAggregate : Operation → Bool
  | .aggregate | .groupBy => true
  | _ => false

end Operation

end ModelGateway
