import ModelGateway.Document.Key
import ModelGateway.Record.Compare

/-!
# Tables

The rows of one model under their keys, in the order in which they were created. A row's key is made
of the values that identify it; a model without identifying fields uses the sequence number.

Sequence numbers are natural numbers. In the program they have 64 bits and would wrap around after
`2 ^ 64` creations of records of one model; no table is assumed to see as many.
-/

namespace ModelGateway

/-- Under what a row is stored. -/
inductive RowKey where
  | sequence (number : Nat)
  | values (values : List Json)
deriving DecidableEq

/-- A stored row. -/
structure Row where
  /-- The place in the order of creation. -/
  sequence : Nat
  data : Record

/-- The rows of a model. -/
structure Table where
  model : Model
  /-- The rows in the order of their sequence numbers. -/
  rows : List (RowKey × Row)
  /-- The sequence number of the next row. -/
  nextSequence : Nat
  /-- The last number of the counter for automatic columns, a signed 64-bit number. -/
  counter : Int

namespace Table

/-- The table of a model without rows. -/
def empty (model : Model) : Table :=
  { model, rows := [], nextSequence := 1, counter := 0 }

/-- The key of a record. -/
def keyFor (t : Table) (r : Record) (sequence : Nat) : RowKey :=
  match t.model.identifyingFields with
  | [] => .sequence sequence
  | ids => .values (ids.map fun f => Record.value r f.name)

/-- The number of rows. -/
def size (t : Table) : Nat := t.rows.length

/-- The stored records in the order of creation. -/
def records (t : Table) : List Record :=
  t.rows.map (·.2.data)

/-- Removes the row stored under a key. -/
def remove (t : Table) (key : RowKey) : Table :=
  { t with rows := t.rows.filter (·.1 ≠ key) }

/-- Puts a row before the first one with a greater sequence number. -/
def insertInOrder (key : RowKey) (row : Row) : List (RowKey × Row) → List (RowKey × Row)
  | [] => [(key, row)]
  | e :: rest =>
    if row.sequence < e.2.sequence then (key, row) :: e :: rest
    else e :: insertInOrder key row rest

/-- Stores a row under a key in place of the one that is there. -/
def put (t : Table) (key : RowKey) (row : Row) : Table :=
  { t with rows := insertInOrder key row (t.remove key).rows }

end Table

end ModelGateway
