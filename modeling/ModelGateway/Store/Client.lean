import ModelGateway.Client.Basic
import ModelGateway.Store.Execute

/-!
# The record store as a client

Every call gets fresh values that no argument determines: they are those of its place among the
calls.
-/

namespace ModelGateway

/-- A store that counts the calls it has answered. -/
structure LiveStore where
  store : Store
  calls : Nat
  /-- Whether a call has panicked. Whoever made it gets no answer. -/
  panicked : Bool := false

namespace LiveStore

/-- The store of a document's models without rows. -/
def ofDocument (d : Document) : LiveStore :=
  { store := Store.ofModels d.models, calls := 0 }

/-- Whether the outcome of a call is a panic. -/
def panics {α : Type} : Except Fault α → Bool
  | .error fault => fault.isPanic
  | .ok _ => false

/-- The store for the requests after one in which a call has panicked. -/
def resumed (s : LiveStore) : LiveStore :=
  { s with panicked := false }

/-- Answers a call, and counts it. -/
def call {α : Type} (s : LiveStore) (answer : Store × Except Fault α) :
    LiveStore × Except ClientError α :=
  ({ store := answer.1, calls := s.calls + 1, panicked := s.panicked || panics answer.2 },
    answer.2.mapError Fault.toClientError)

/-- Answers an operation. -/
def execute (supplies : Nat → Supply) (s : LiveStore) (delegate : String) (op : Operation)
    (args : Json) : LiveStore × Except ClientError Json :=
  s.call (s.store.execute (supplies s.calls) delegate op args)

/-- Reads a relation. -/
def relation (s : LiveStore) (delegate : String) (lookup : Json) (field : String) (args : Json) :
    LiveStore × Except ClientError Json :=
  s.call (s.store, s.store.relation delegate lookup field args)

/-- Creates the records of seed data. -/
def seed (supplies : Nat → Supply) (s : LiveStore) (data : Json) :
    LiveStore × Except ClientError Nat :=
  s.call (s.store.seed (supplies s.calls) data)

/-- The client. -/
def client (supplies : Nat → Supply) : Client LiveStore :=
  Client.withoutRaw (execute supplies) relation

end LiveStore

end ModelGateway
