/-!
# Doubles

The finite numbers of IEEE 754 binary64, each kept as the whole number of `2 ^ -1074` that it is,
together with the sign of zero. Every operation is exact arithmetic on whole numbers followed by
one rounding (`Double.ofRatio?`), to the nearest double and in a tie to the even one; a result
beyond the finite doubles is `none`.
-/

namespace ModelGateway

/-- A finite binary64 number: `± mantissa * 2 ^ exponent` units of `2 ^ -1074`. The mantissa is
below `2 ^ 53`, and at least `2 ^ 52` unless the exponent is the least one. -/
structure Double where
  /-- The sign bit, which zero has too. -/
  negative : Bool
  /-- The significand, of at most 53 bits. -/
  mantissa : Nat
  /-- The binary exponent, counted from that of the least positive double. -/
  exponent : Nat
  mantissa_lt : mantissa < 9007199254740992
  exponent_le : exponent ≤ 2045
  leading : exponent = 0 ∨ 4503599627370496 ≤ mantissa
deriving DecidableEq

namespace Double

/-- The absolute value in units of `2 ^ -1074`. -/
def magnitude (x : Double) : Nat :=
  x.mantissa * Nat.pow 2 x.exponent

/-- The value in units of `2 ^ -1074`. -/
def units (x : Double) : Int :=
  if x.negative then -(x.magnitude : Int) else x.magnitude

/-- Zero of either sign. -/
def zero (negative : Bool) : Double where
  negative := negative
  mantissa := 0
  exponent := 0
  mantissa_lt := by decide
  exponent_le := by decide
  leading := .inl rfl

instance : Inhabited Double := ⟨zero false⟩

/-- The number of units in one. -/
def one : Nat := Nat.pow 2 1074

/-- The double with the given parts, if they are those of a finite double. -/
def ofParts? (negative : Bool) (mantissa exponent : Nat) : Option Double :=
  if h : mantissa < 9007199254740992 ∧ exponent ≤ 2045 ∧
      (exponent = 0 ∨ 4503599627370496 ≤ mantissa) then
    some ⟨negative, mantissa, exponent, h.1, h.2.1, h.2.2⟩
  else none

/-- The whole number nearest to `num / den`, the even one in a tie. -/
def roundHalfEven (num den : Nat) : Nat :=
  let quotient := num / den
  let twice := 2 * (num % den)
  if twice < den ∨ (twice = den ∧ quotient % 2 = 0) then quotient else quotient + 1

/-- The double nearest to `± num / den` units, the even one in a tie; `none` if that is not
finite. -/
def ofUnits? (negative : Bool) (num den : Nat) : Option Double :=
  let exponent := (num / den).log2 - 52
  let mantissa := roundHalfEven num (den * Nat.pow 2 exponent)
  if mantissa = 9007199254740992 then ofParts? negative 4503599627370496 (exponent + 1)
  else ofParts? negative mantissa exponent

/-- The double nearest to `± num / den`. -/
def ofRatio? (negative : Bool) (num den : Nat) : Option Double :=
  ofUnits? negative (num * one) den

/-- The double nearest to a whole number. -/
def ofInt? (n : Int) : Option Double :=
  ofRatio? (n < 0) n.natAbs 1

/-- The double with the other sign. -/
def neg (x : Double) : Double :=
  { x with negative := !x.negative }

/-- The sum. An exact zero is negative only as the sum of two negative zeros. -/
def add? (x y : Double) : Option Double :=
  let sum := x.units + y.units
  if sum = 0 then some (zero (x.negative && y.negative))
  else ofUnits? (sum < 0) sum.natAbs 1

/-- The difference. -/
def sub? (x y : Double) : Option Double :=
  x.add? y.neg

/-- The product. -/
def mul? (x y : Double) : Option Double :=
  ofUnits? (x.negative != y.negative) (x.magnitude * y.magnitude) one

/-- The quotient; `none` for a zero divisor. -/
def div? (x y : Double) : Option Double :=
  if y.mantissa = 0 then none
  else ofUnits? (x.negative != y.negative) (x.magnitude * one) y.magnitude

/-- The order of the values; the two zeros are equal. -/
def compare (x y : Double) : Ordering :=
  Ord.compare x.units y.units

/-- Whether the values are equal, as those of the two zeros are. -/
def sameValue (x y : Double) : Bool :=
  x.units == y.units

end Double

end ModelGateway
