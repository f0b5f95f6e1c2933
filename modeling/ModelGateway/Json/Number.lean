import ModelGateway.Json.Decimal
import ModelGateway.Json.Word

/-!
# Numbers

A JSON number: a whole number of 64 bits, signed or not, or a double. `1` and `1.0` are different
numbers of the same value. Reading follows the JSON grammar (`Number.read?`), writing keeps the two
kinds apart (`Number.text`).
-/

namespace ModelGateway

/-- A whole number of 64 bits, signed or unsigned, or a finite double. -/
inductive Number where
  | int (value : Int) (fits : IsWord value)
  | double (value : Double)
deriving DecidableEq

namespace Number

instance : Inhabited Number := ⟨.int 0 (by decide)⟩

/-- A whole number, if 64 bits hold it. -/
def ofInt? (n : Int) : Option Number :=
  if h : IsWord n then some (.int n h) else none

/-- A count. -/
def ofNat (n : Nat) : Number :=
  (ofInt? n).getD default

/-- The value as a signed 64-bit whole number. A double is none, even if it is whole. -/
def toInt64? : Number → Option Int
  | .int n _ => int64? n
  | .double _ => none

/-- The value as an unsigned 64-bit whole number. -/
def toNat? : Number → Option Nat
  | .int n _ => if 0 ≤ n then some n.toNat else none
  | .double _ => none

/-- The nearest double. -/
def toDouble : Number → Double
  | .int n _ => (Double.ofInt? n).getD default
  | .double d => d

/-- Equality of numbers of one kind by value: the two zeros among the doubles are equal, `1` and
`1.0` are not. -/
def same : Number → Number → Bool
  | .int a _, .int b _ => a == b
  | .double a, .double b => a.sameValue b
  | _, _ => false

/-- The written form. -/
def text : Number → String
  | .int n _ => String.ofList (Decimal.intChars n)
  | .double d => d.text

/-! ## Reading -/

/-- Splits a text into its leading decimal digits and the rest. -/
def spanDigits (cs : List Char) : List Char × List Char :=
  (cs.takeWhile Char.isDigit, cs.dropWhile Char.isDigit)

/-- Reads an optional fraction: a point and at least one digit. -/
def readFraction? : List Char → Option (List Char × List Char)
  | '.' :: rest =>
    match spanDigits rest with
    | ([], _) => none
    | (digits, rest) => some (digits, rest)
  | rest => some ([], rest)

/-- Reads an optional exponent: a letter, an optional sign and at least one digit. -/
def readExponent? : List Char → Option (Option Int × List Char)
  | c :: rest =>
    if c = 'e' ∨ c = 'E' then
      let (negative, rest) :=
        match rest with
        | '-' :: rest => (true, rest)
        | '+' :: rest => (false, rest)
        | rest => (false, rest)
      match spanDigits rest with
      | ([], _) => none
      | (digits, rest) =>
        let size : Int := Decimal.ofDigitChars digits
        some (some (if negative then -size else size), rest)
    else some (none, c :: rest)
  | [] => some (none, [])

/-- Reads the parts of a JSON number and returns what follows: an optional minus sign, a whole part
without needless zeros, an optional fraction and an optional exponent. -/
def readParts? (cs : List Char) : Option (Decimal.Parts × List Char) := do
  let (negative, cs) :=
    match cs with
    | '-' :: rest => (true, rest)
    | cs => (false, cs)
  let (whole, rest) := spanDigits cs
  match whole with
  | [] => none
  | '0' :: _ :: _ => none
  | _ =>
    let (fraction, rest) ← readFraction? rest
    let (exponent, rest) ← readExponent? rest
    return ({ negative, whole, fraction, exponent }, rest)

/-- The number written by some parts: a whole number if there is neither fraction nor exponent and
64 bits hold it, else a double. Minus zero is a double. -/
def ofParts? (parts : Decimal.Parts) : Option Number :=
  let size : Int := Decimal.ofDigitChars parts.whole
  let whole := if parts.negative then -size else size
  if parts.fraction = [] ∧ parts.exponent = none ∧ ¬(parts.negative ∧ size = 0) then
    match ofInt? whole with
    | some n => some n
    | none => parts.scaled?.map .double
  else parts.scaled?.map .double

/-- Reads a number that is the whole text. -/
def read? (cs : List Char) : Option Number :=
  match readParts? cs with
  | some (parts, []) => ofParts? parts
  | _ => none

end Number

end ModelGateway
