import ModelGateway.Json.AnyDouble
import ModelGateway.Time.Instant

/-!
# Raw values

What a database driver returns for a raw query, with the driver's own types.
-/

namespace ModelGateway

open Time (Instant)

/-- A value of a database driver. -/
inductive RawValue where
  | null
  | bool (value : Bool)
  /-- A whole number. -/
  | int (value : Int)
  /-- A whole number of a column of 64-bit numbers. -/
  | bigInt (value : Int)
  /-- A double, which need not be finite. -/
  | double (value : AnyDouble)
  /-- A decimal of any precision, in its written form. -/
  | decimal (text : String)
  | string (value : String)
  | instant (value : Instant)
  | json (value : Json)
  | list (items : List RawValue)
  | object (columns : List (String × RawValue))

namespace RawValue

instance : Inhabited RawValue := ⟨.null⟩

/-- Whether this is the null of the driver. -/
def isNull : RawValue → Bool
  | .null => true
  | _ => false

end RawValue

end ModelGateway
