import ModelGateway.Json.Basic

/-!
# Doubles that need not be finite

All numbers of IEEE 754 binary64, with their text and their reading. JSON has the finite ones alone
(`AnyDouble.toJson`).
-/

namespace ModelGateway

/-- A binary64 number, finite or not. -/
inductive AnyDouble where
  | finite (value : Double)
  | nan
  | infinite (negative : Bool)
deriving DecidableEq

namespace AnyDouble

instance : Inhabited AnyDouble := ⟨.finite default⟩

/-- The number as a JSON value; one that is not finite has none. -/
def toJson : AnyDouble → Json
  | .finite d => .num (.double d)
  | .nan | .infinite _ => .null

/-- The text without an exponent, and without a point if the number is whole. -/
def plainText : AnyDouble → String
  | .finite d => d.plainText
  | .nan => "NaN"
  | .infinite negative => if negative then "-inf" else "inf"

/-- Whether this is one of the zeros. -/
def isZero : AnyDouble → Bool
  | .finite d => d.mantissa == 0
  | _ => false

/-- The nearest whole number from zero up to `last`; halves are rounded up, and what is no number
counts as zero. -/
def toNatUpTo (last : Nat) : AnyDouble → Nat
  | .finite d =>
    if d.negative then 0 else min last ((2 * d.magnitude + Double.one) / (2 * Double.one))
  | .nan => 0
  | .infinite negative => if negative then 0 else last

/-! ## Reading -/

/-- The nearest number to a written one, which may be infinite. -/
def ofParts (parts : Decimal.Parts) : AnyDouble :=
  match parts.nearest? with
  | some d => .finite d
  | none => .infinite parts.negative

/-- Reads digits with an optional fraction; one of the two parts may be empty. -/
def readPoint (cs : List Char) : List Char × List Char × List Char :=
  let (whole, rest) := Number.spanDigits cs
  match rest with
  | '.' :: rest =>
    let (fraction, rest) := Number.spanDigits rest
    (whole, fraction, rest)
  | rest => (whole, [], rest)

/-- Reads what follows the sign of a number. -/
def readUnsigned? (negative : Bool) (cs : List Char) : Option AnyDouble :=
  match String.ofList (cs.map Char.toLower) with
  | "inf" | "infinity" => some (.infinite negative)
  | "nan" => some .nan
  | _ => do
    let (whole, fraction, rest) := readPoint cs
    guard (!(whole.isEmpty && fraction.isEmpty))
    let (exponent, rest) ← Number.readExponent? rest
    guard rest.isEmpty
    return ofParts { negative, whole, fraction, exponent }

/-- Reads a number that is the whole text: an optional sign, then a name such as `inf`, or digits
with an optional point anywhere among them and an optional exponent. -/
def read? : List Char → Option AnyDouble
  | '-' :: rest => readUnsigned? true rest
  | '+' :: rest => readUnsigned? false rest
  | cs => readUnsigned? false cs

end AnyDouble

end ModelGateway
