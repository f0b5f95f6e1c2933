import ModelGateway.Json.Double
import ModelGateway.Json.Word

/-!
# Decimal forms of doubles

Writing: the shortest decimal that reads back as the same double (`Decimal.shortest`), laid out
either with a bounded number of places and an exponent outside them (`Double.text`) or always
positionally (`Double.plainText`). Reading: the leading 64 bits of the significand, scaled by one
power of ten (`Decimal.scaled?`), or the nearest double (`Decimal.nearest?`).
-/

namespace ModelGateway

/-- A positive decimal `digits * 10 ^ exponent`. -/
structure Decimal where
  digits : Nat
  exponent : Int

namespace Decimal

/-- The decimal digits of a number, most significant first. -/
def digitChars (n : Nat) : List Char :=
  Nat.toDigits 10 n

/-- The decimal form of a whole number. -/
def intChars (n : Int) : List Char :=
  if n < 0 then '-' :: digitChars n.natAbs else digitChars n.natAbs

/-- The value of a list of decimal digits. -/
def ofDigitChars (digits : List Char) : Nat :=
  digits.foldl (fun n c => n * 10 + (c.toNat - '0'.toNat)) 0

/-! ## Shortest decimals -/

/-- What to do with a double that lies midway between two shortest decimals. -/
inductive Tie
  | even
  | up
deriving DecidableEq

/-- The decimals that read back as a double: those between `low` and `high`, in units of
`2 ^ -1076`, the ends included if `closed`. -/
structure Neighbourhood where
  low : Nat
  mid : Nat
  high : Nat
  closed : Bool

/-- The neighbourhood of a double's absolute value. The gap below a power of two is half the gap
above it. -/
def Neighbourhood.of (x : Double) : Neighbourhood :=
  let gap := Nat.pow 2 x.exponent
  let below := if x.mantissa = 4503599627370496 ∧ 0 < x.exponent then 1 else 2
  { low := (4 * x.mantissa - below) * gap
    mid := 4 * x.mantissa * gap
    high := (4 * x.mantissa + 2) * gap
    closed := x.mantissa % 2 = 0 }

/-- Whether `n / d` units of `2 ^ -1076` lie in the neighbourhood. -/
def Neighbourhood.contains (hood : Neighbourhood) (n d : Nat) : Bool :=
  if hood.closed then hood.low * d ≤ n && n ≤ hood.high * d
  else hood.low * d < n && n < hood.high * d

/-- The multiple of `10 ^ exponent` in the neighbourhood that is nearest to its middle. -/
def Neighbourhood.onGrid? (hood : Neighbourhood) (tie : Tie) (exponent : Int) : Option Nat :=
  let step := Nat.pow 10 exponent.toNat * Nat.pow 2 1076
  let scale := Nat.pow 10 (-exponent).toNat
  let below := hood.mid * scale / step
  let above := below + 1
  match hood.contains (below * step) scale, hood.contains (above * step) scale with
  | false, false => none
  | true, false => some below
  | false, true => some above
  | true, true =>
    let down := hood.mid * scale - below * step
    let up := above * step - hood.mid * scale
    if down < up then some below
    else if up < down then some above
    else match tie with
      | .up => some above
      | .even => if below % 2 = 0 then some below else some above

/-- Tries finer and finer grids. -/
def Neighbourhood.search (hood : Neighbourhood) (tie : Tie) : Nat → Int → Decimal
  | 0, exponent => { digits := hood.mid / Nat.pow 2 1076, exponent := exponent }
  | steps + 1, exponent =>
    match hood.onGrid? tie exponent with
    | some digits => { digits, exponent }
    | none => hood.search tie steps (exponent - 1)

/-- An exponent of ten not below that of the leading digit. -/
def leadingExponent (x : Double) : Int :=
  ((x.magnitude.log2 : Int) - 1074) * 30103 / 100000 + 1

/-- The decimal with the fewest digits that reads back as the absolute value of `x`; of several
the nearest one. -/
def shortest (tie : Tie) (x : Double) : Decimal :=
  (Neighbourhood.of x).search tie 24 (leadingExponent x)

/-! ## Reading -/

/-- The parts of a written number: sign, digits before and after the point, exponent. -/
structure Parts where
  negative : Bool
  whole : List Char
  fraction : List Char
  exponent : Option Int

/-- The nearest double to a written number. -/
def Parts.nearest? (parts : Parts) : Option Double :=
  let digits := ofDigitChars (parts.whole ++ parts.fraction)
  if digits = 0 then some (Double.zero parts.negative)
  else
    let exponent := parts.exponent.getD 0 - parts.fraction.length
    let size : Int := (digitChars digits).length + exponent
    if size > 400 then none
    else if size < -400 then some (Double.zero parts.negative)
    else
      Double.ofRatio? parts.negative (digits * Nat.pow 10 exponent.toNat)
        (Nat.pow 10 (-exponent).toNat)

/-- A significand of at most 64 bits and the number of its digits taken. -/
def takeDigits : Nat → Nat → List Char → Nat × Nat
  | significand, taken, [] => (significand, taken)
  | significand, taken, c :: rest =>
    let next := significand * 10 + (c.toNat - '0'.toNat)
    if next < wordCount then takeDigits next (taken + 1) rest else (significand, taken)

/-- The nearest double to a power of ten up to `10 ^ 308`. -/
def powerOfTen (n : Nat) : Double :=
  (Double.ofRatio? false (Nat.pow 10 n) 1).getD default

/-- Divides `steps` times by `10 ^ 308`, or until nothing is left, and then by the remaining power
of ten. -/
def shrink : Nat → Double → Nat → Option Double
  | 0, x, rest => x.div? (powerOfTen rest)
  | steps + 1, x, rest =>
    if x.mantissa = 0 then some x
    else
      match x.div? (powerOfTen 308) with
      | some y => shrink steps y rest
      | none => none

/-- Divides by `10 ^ count`, at most `10 ^ 308` at a time. -/
def divideByPower (x : Double) (count : Nat) : Option Double :=
  if count ≤ 308 then x.div? (powerOfTen count)
  else shrink ((count - 1) / 308) x ((count - 1) % 308 + 1)

/-- Multiplies by `10 ^ exponent`; a result that is not finite is refused. -/
def scale? (x : Double) (exponent : Int) : Option Double :=
  if 0 ≤ exponent then
    if exponent ≤ 308 then x.mul? (powerOfTen exponent.toNat)
    else if x.mantissa = 0 then some x else none
  else divideByPower x (-exponent).toNat

/-- The leading digits that fit 64 bits, rounded to a double and scaled by the power of ten that
the other digits and the exponent leave. -/
def Parts.scaled? (parts : Parts) : Option Double := do
  let (significand, taken) := takeDigits 0 0 parts.whole
  let dropped : Int := parts.whole.length - taken
  let (significand, places) := takeDigits significand 0 parts.fraction
  let start : Int := dropped - places
  let exponent := max (-2147483648) (min 2147483647 (start + parts.exponent.getD 0))
  match parts.exponent with
  | some e =>
    if e.natAbs > 2147483647 then
      if significand ≠ 0 ∧ 0 < e then none else some (Double.zero parts.negative)
    else finish significand exponent
  | none => finish significand exponent
where
  /-- Scales the significand and gives it the sign. -/
  finish (significand : Nat) (exponent : Int) : Option Double := do
    let rounded ← Double.ofInt? significand
    let value ← scale? rounded exponent
    return if parts.negative then value.neg else value

end Decimal

namespace Double

/-- Zeros. -/
def zeros (n : Nat) : List Char := List.replicate n '0'

/-- The sign of a double's text. -/
def signChars (x : Double) : List Char := if x.negative then ['-'] else []

/-- The text of a double: its shortest decimal, positional from `10 ^ -5` up to `10 ^ 16` and with
a digit after the point, else with an exponent. -/
def text (x : Double) : String :=
  if x.mantissa = 0 then String.ofList (x.signChars ++ "0.0".toList)
  else
    let decimal := Decimal.shortest .even x
    let digits := Decimal.digitChars decimal.digits
    let point : Int := digits.length + decimal.exponent
    let body :=
      if 0 ≤ decimal.exponent ∧ point ≤ 16 then
        digits ++ zeros decimal.exponent.toNat ++ ".0".toList
      else if 0 < point ∧ point ≤ 16 then
        digits.take point.toNat ++ ['.'] ++ digits.drop point.toNat
      else if -5 < point ∧ point ≤ 0 then
        "0.".toList ++ zeros (-point).toNat ++ digits
      else
        let exponent := Decimal.intChars (point - 1)
        digits.take 1 ++ (if digits.length = 1 then [] else '.' :: digits.drop 1) ++ 'e' :: exponent
    String.ofList (x.signChars ++ body)

/-- The text of a double without an exponent, and without a point if it is whole. -/
def plainText (x : Double) : String :=
  if x.mantissa = 0 then String.ofList (x.signChars ++ ['0'])
  else
    let decimal := Decimal.shortest .up x
    let digits := Decimal.digitChars decimal.digits
    let point : Int := digits.length + decimal.exponent
    let body :=
      if 0 ≤ decimal.exponent then digits ++ zeros decimal.exponent.toNat
      else if 0 < point then digits.take point.toNat ++ ['.'] ++ digits.drop point.toNat
      else "0.".toList ++ zeros (-point).toNat ++ digits
    String.ofList (x.signChars ++ body)

end Double

end ModelGateway
