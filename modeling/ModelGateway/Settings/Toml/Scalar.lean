import ModelGateway.Settings.Setting
import ModelGateway.Text.Hex
import ModelGateway.Time.Instant

/-!
# Unquoted values of TOML

Truth values, whole numbers in four bases, doubles, and the dates and times, which are kept as texts
of one normal form. Every reader takes a word that has to be the value as a whole.
-/

namespace ModelGateway.Toml

open Time (Date)
open Time.Instant (readDigits? readChar? readFraction? padded fractionDigits)

/-! ## Numbers -/

/-- The digits of a run in which single underscores may stand between digits. -/
def spacedTail? (isDigit : Char → Bool) : List Char → Option (List Char)
  | [] => some []
  | '_' :: c :: rest => if isDigit c then (spacedTail? isDigit rest).map (c :: ·) else none
  | c :: rest => if isDigit c then (spacedTail? isDigit rest).map (c :: ·) else none

/-- The digits of a run that starts with a digit. -/
def spaced? (isDigit : Char → Bool) : List Char → Option (List Char)
  | [] => none
  | c :: rest => if isDigit c then (spacedTail? isDigit rest).map (c :: ·) else none

/-- Whether a character is a digit of a base up to sixteen. -/
def isDigitOf (base : Nat) (c : Char) : Bool :=
  match Text.hexValue? c with
  | some d => d < base
  | none => false

/-- A number in a base. -/
def inBase? (base : Nat) (cs : List Char) : Option Nat := do
  let digits ← spaced? (isDigitOf base) cs
  let values ← digits.mapM Text.hexValue?
  return values.foldl (fun n d => n * base + d) 0

/-- A decimal number without needless zeros. -/
def decimal? (cs : List Char) : Option (List Char) :=
  match spaced? Char.isDigit cs with
  | some ('0' :: _ :: _) => none
  | digits => digits

/-- Splits a sign off. -/
def signed : List Char → Bool × List Char
  | '-' :: rest => (true, rest)
  | '+' :: rest => (false, rest)
  | cs => (false, cs)

/-- A whole number before its range is checked. -/
def wholeNumber? : List Char → Option Int
  | '0' :: 'x' :: rest => (inBase? 16 rest).map Int.ofNat
  | '0' :: 'o' :: rest => (inBase? 8 rest).map Int.ofNat
  | '0' :: 'b' :: rest => (inBase? 2 rest).map Int.ofNat
  | cs =>
    let (negative, digits) := signed cs
    (decimal? digits).map fun digits =>
      let size : Int := Decimal.ofDigitChars digits
      if negative then -size else size

/-- A whole number of 64 bits. -/
def int? (cs : List Char) : Option Int :=
  (wholeNumber? cs).bind int64?

/-- Whether a character is a decimal digit or stands between two. -/
def isSpacedDigit (c : Char) : Bool :=
  c.isDigit || c == '_'

/-- Splits a fraction off. -/
def fraction? : List Char → Option (List Char × List Char)
  | '.' :: rest =>
    (spaced? Char.isDigit (rest.takeWhile isSpacedDigit)).map (·, rest.dropWhile isSpacedDigit)
  | rest => some ([], rest)

/-- The exponent that is all that is left. -/
def exponent? : List Char → Option (Option Int)
  | [] => some none
  | c :: rest =>
    if c == 'e' || c == 'E' then
      let (negative, digits) := signed rest
      (spaced? Char.isDigit digits).map fun digits =>
        let size : Int := Decimal.ofDigitChars digits
        some (if negative then -size else size)
    else none

/-- A double with a fraction or an exponent. -/
def pointNumber? (negative : Bool) (cs : List Char) : Option AnyDouble := do
  let whole ← decimal? (cs.takeWhile isSpacedDigit)
  let (fraction, rest) ← fraction? (cs.dropWhile isSpacedDigit)
  let exponent ← exponent? rest
  guard (!fraction.isEmpty || exponent.isSome)
  return .ofParts { negative, whole, fraction, exponent }

/-- A double. One that is too large to be finite is refused. -/
def float? (cs : List Char) : Option AnyDouble :=
  let (negative, digits) := signed cs
  match String.ofList digits with
  | "inf" => some (.infinite negative)
  | "nan" => some .nan
  | _ => (pointNumber? negative digits).filter (· != .infinite false)

/-! ## Dates and times -/

/-- Reads a date and returns its normal form. -/
def readDate? (cs : List Char) : Option (List Char × List Char) := do
  let (year, cs) ← readDigits? 4 cs
  let cs ← readChar? '-' cs
  let (month, cs) ← readDigits? 2 cs
  let cs ← readChar? '-' cs
  let (day, cs) ← readDigits? 2 cs
  let date : Date := { year := (year : Int), month, day }
  guard date.isValid
  return (padded 4 year ++ '-' :: padded 2 month ++ '-' :: padded 2 day, cs)

/-- Reads a time of day and returns its normal form. -/
def readTime? (cs : List Char) : Option (List Char × List Char) := do
  let (hour, cs) ← readDigits? 2 cs
  let cs ← readChar? ':' cs
  let (minute, cs) ← readDigits? 2 cs
  let cs ← readChar? ':' cs
  let (second, cs) ← readDigits? 2 cs
  let (nanos, cs) ← readFraction? cs
  guard (hour < 24 && minute < 60 && second ≤ 60)
  let fraction := if nanos = 0 then [] else '.' :: fractionDigits nanos
  return (padded 2 hour ++ ':' :: padded 2 minute ++ ':' :: padded 2 second ++ fraction, cs)

/-- The normal form of an offset that is all that is left. -/
def offset? : List Char → Option (List Char)
  | [] => some []
  | c :: rest =>
    if c == 'Z' || c == 'z' then if rest.isEmpty then some ['Z'] else none
    else if c == '+' || c == '-' then do
      let (hours, rest) ← readDigits? 2 rest
      let rest ← readChar? ':' rest
      let (minutes, rest) ← readDigits? 2 rest
      guard (rest.isEmpty && hours < 24 && minutes < 60)
      let sign := if hours = 0 && minutes = 0 then '+' else c
      return sign :: padded 2 hours ++ ':' :: padded 2 minutes
    else none

/-- A time of day with an offset. -/
def offsetTime? (cs : List Char) : Option (List Char) := do
  let (time, cs) ← readTime? cs
  return time ++ (← offset? cs)

/-- Whether a character may stand between date and time. -/
def isTimeMark (c : Char) : Bool :=
  c == 'T' || c == 't' || c == ' '

/-- A date with a time of day or without one, or a time of day. -/
def dateTime? (cs : List Char) : Option (List Char) :=
  match readDate? cs with
  | some (date, []) => some date
  | some (date, c :: rest) =>
    if isTimeMark c then (offsetTime? rest).map fun time => date ++ 'T' :: time else none
  | none =>
    match readTime? cs with
    | some (time, []) => some time
    | _ => none

/-! ## Words -/

/-- The value that a word stands for. -/
def word? (cs : List Char) : Option Setting :=
  match String.ofList cs with
  | "true" => some (.bool true)
  | "false" => some (.bool false)
  | _ =>
    match dateTime? cs, int? cs, float? cs with
    | some text, _, _ => some (.text (String.ofList text))
    | none, some n, _ => some (.int n)
    | none, none, some x => some (.float x)
    | none, none, none => none

/-- Whether a character ends a word. -/
def endsWord (c : Char) : Bool :=
  c == ' ' || c == '\t' || c == '\n' || c == '\r' || c == ',' || c == ']' || c.toNat == 0x7d
    || c == '#'

/-- Splits a word off; a blank inside it may stand between a date and a time. -/
def spanWord (cs : List Char) : List Char × List Char :=
  let word := cs.takeWhile (!endsWord ·)
  let rest := cs.dropWhile (!endsWord ·)
  match readDate? word, rest with
  | some (_, []), ' ' :: c :: more =>
    if c.isDigit then
      (word ++ ' ' :: (c :: more).takeWhile (!endsWord ·), (c :: more).dropWhile (!endsWord ·))
    else (word, rest)
  | _, _ => (word, rest)

end ModelGateway.Toml
