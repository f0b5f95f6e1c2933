import ModelGateway.Client.Operation
import ModelGateway.Client.RawValue

/-!
# Clients

What answers the calls of a gateway: operations on a model's delegate, relations of a record that a
point lookup finds, raw statements. A client acts on a state of its own type.
-/

namespace ModelGateway

/-- A client with states `σ`. -/
structure Client (σ : Type) where
  /-- An operation on a delegate. -/
  execute : σ → (delegate : String) → Operation → (args : Json) → σ × Except ClientError Json
  /-- A relation of the record that a point lookup on a delegate finds. -/
  relation : σ → (delegate : String) → (lookup : Json) → (field : String) → (args : Json) →
    σ × Except ClientError Json
  /-- The rows of a raw query. -/
  queryRaw : σ → (query : String) → (parameters : List Json) → σ × Except ClientError RawValue
  /-- The number of rows that a raw statement affects. -/
  executeRaw : σ → (query : String) → (parameters : List Json) → σ × Except ClientError Nat

namespace Client

variable {σ α : Type}

/-- The error of a client that does not have an operation. -/
def unsupported (operation : String) : ClientError :=
  { kind := .unsupported, detail := operation }

/-- A client without raw statements. -/
def withoutRaw
    (execute : σ → String → Operation → Json → σ × Except ClientError Json)
    (relation : σ → String → Json → String → Json → σ × Except ClientError Json) : Client σ where
  execute := execute
  relation := relation
  queryRaw s _ _ := (s, .error (unsupported "queryRaw"))
  executeRaw s _ _ := (s, .error (unsupported "executeRaw"))

end Client

end ModelGateway
