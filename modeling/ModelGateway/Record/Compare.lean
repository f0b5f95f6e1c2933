import ModelGateway.Json.Basic
import ModelGateway.Time.Instant

/-!
# Comparing column values

Values of one kind are ordered: numbers by value, texts that are both RFC 3339 instants by the
instant and other texts by code points, truth values with false first. Values of different kinds,
lists and objects have no order.
-/

namespace ModelGateway

open Time (Instant)

/-- A stored record: columns in order. -/
abbrev Record := Entries Json

/-- The value of a column, null if the record lacks it. -/
def Record.value (r : Record) (column : String) : Json :=
  (Entries.get? r column).getD .null

/-- Orders numbers: exactly if both are signed 64-bit whole numbers, else as doubles. -/
def compareNumbers (x y : Number) : Ordering :=
  match x.toInt64?, y.toInt64? with
  | some a, some b => compare a b
  | _, _ => x.toDouble.compare y.toDouble

/-- Orders texts: by the instant if both are instants, else by code points. -/
def compareTexts (x y : String) : Ordering :=
  match Instant.read? x, Instant.read? y with
  | some a, some b => a.compare b
  | _, _ => compare x y

/-- Orders two values of one kind; none if they are not comparable. -/
def compareValues : Json → Json → Option Ordering
  | .num x, .num y => some (compareNumbers x y)
  | .str x, .str y => some (compareTexts x y)
  | .bool x, .bool y => some (compare x y)
  | .null, .null => some .eq
  | _, _ => none

/-- Equality of column values: numbers and texts that compare as equal, other values that are the
same up to the order of names. -/
def valuesEqual : Json → Json → Bool
  | .num x, .num y => compareNumbers x y == .eq
  | .str x, .str y => compareTexts x y == .eq
  | a, b => a.same b

/-- Whether a selection entry asks for something: anything but false and null does. -/
def isWanted : Json → Bool
  | .bool false | .null => false
  | _ => true

end ModelGateway
