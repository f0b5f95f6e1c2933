import ModelGateway.Json.Decimal
import ModelGateway.Time.Calendar

/-!
# Instants

Points in time to the nanosecond, each with the offset from UTC in which it is shown. Two instants
are ordered by the moment alone. `Instant.read?` reads RFC 3339, `Instant.text` writes it where it
can and a longer form elsewhere.
-/

namespace ModelGateway.Time

/-- A moment and the offset in which it is shown. -/
structure Instant where
  /-- Whole seconds since 1970-01-01T00:00:00Z. -/
  seconds : Int
  /-- Nanoseconds of the current second. -/
  nanos : Nat
  /-- Seconds east of UTC. -/
  offset : Int
deriving DecidableEq, Repr

namespace Instant

/-- The order in time. -/
def compare (a b : Instant) : Ordering :=
  (Ord.compare a.seconds b.seconds).then (Ord.compare a.nanos b.nanos)

/-! ## Reading -/

/-- Reads exactly `count` decimal digits. -/
def readDigits? (count : Nat) (cs : List Char) : Option (Nat × List Char) :=
  let digits := cs.take count
  if digits.length = count ∧ digits.all Char.isDigit then
    some (Decimal.ofDigitChars digits, cs.drop count)
  else none

/-- Reads one given character. -/
def readChar? (c : Char) : List Char → Option (List Char)
  | d :: rest => if d = c then some rest else none
  | [] => none

/-- The nanoseconds that the digits after a decimal point stand for; those after the ninth do not
count. -/
def nanosOfDigits (digits : List Char) : Nat :=
  let taken := digits.take 9
  Decimal.ofDigitChars taken * Nat.pow 10 (9 - taken.length)

/-- Reads an optional fraction of a second. -/
def readFraction? : List Char → Option (Nat × List Char)
  | '.' :: rest =>
    match rest.takeWhile Char.isDigit with
    | [] => none
    | digits => some (nanosOfDigits digits, rest.dropWhile Char.isDigit)
  | rest => some (0, rest)

/-- Reads an offset: `Z`, or a sign, hours below 24 and minutes below 60. -/
def readOffset? : List Char → Option (Int × List Char)
  | c :: rest =>
    if c = 'Z' ∨ c = 'z' then some (0, rest)
    else if c = '+' ∨ c = '-' then do
      let (hours, rest) ← readDigits? 2 rest
      let rest ← readChar? ':' rest
      let (minutes, rest) ← readDigits? 2 rest
      if hours ≤ 23 ∧ minutes ≤ 59 then
        let size : Int := (hours * 3600 + minutes * 60 : Nat)
        some (if c = '-' then -size else size, rest)
      else none
    else none
  | [] => none

/-- Whether a moment is the last second of a month of UTC, after which a leap second may come. -/
def endsMonth (seconds : Int) : Bool :=
  let date := Date.ofDays (seconds / 86400)
  seconds % 86400 == 86399 && date.day == daysInMonth date.year date.month

/-- Reads an RFC 3339 instant that is the whole text. Any one ASCII character may separate date and
time. A leap second is the last nanosecond of the second before it. -/
def readChars? (cs : List Char) : Option Instant := do
  let (year, cs) ← readDigits? 4 cs
  let cs ← readChar? '-' cs
  let (month, cs) ← readDigits? 2 cs
  let cs ← readChar? '-' cs
  let (day, cs) ← readDigits? 2 cs
  let cs ← match cs with
    | c :: rest => if c.toNat < 0x80 then some rest else none
    | [] => none
  let (hour, cs) ← readDigits? 2 cs
  let cs ← readChar? ':' cs
  let (minute, cs) ← readDigits? 2 cs
  let cs ← readChar? ':' cs
  let (second, cs) ← readDigits? 2 cs
  let (nanos, cs) ← readFraction? cs
  let (offset, cs) ← readOffset? cs
  let date : Date := { year := (year : Int), month, day }
  if cs.isEmpty && date.isValid && decide (hour < 24) && decide (minute < 60)
      && decide (second ≤ 60) then
    let leap := second == 60
    let ofDay : Int := (hour * 3600 + minute * 60 + (if leap then 59 else second) : Nat)
    let seconds := date.toDays * 86400 + ofDay - offset
    if leap then
      if endsMonth seconds then some { seconds, nanos := 999999999, offset } else none
    else some { seconds, nanos, offset }
  else none

/-- Reads an RFC 3339 instant. -/
def read? (s : String) : Option Instant :=
  readChars? s.toList

/-! ## Writing -/

/-- A number with leading zeros up to a width. -/
def padded (width n : Nat) : List Char :=
  let digits := Decimal.digitChars n
  List.replicate (width - digits.length) '0' ++ digits

/-- The digits of a fraction of a second without trailing zeros. -/
def fractionDigits (nanos : Nat) : List Char :=
  ((padded 9 nanos).reverse.dropWhile (· == '0')).reverse

/-- The date on which an instant falls where it is shown. -/
def localDate (t : Instant) : Date :=
  Date.ofDays ((t.seconds + t.offset) / 86400)

/-- The second of the day at which an instant falls where it is shown. -/
def localSecond (t : Instant) : Nat :=
  ((t.seconds + t.offset) % 86400).toNat

/-- Hours, minutes and seconds of an offset. -/
def offsetParts (t : Instant) : Nat × Nat × Nat :=
  let size := t.offset.natAbs
  (size / 3600, size / 60 % 60, size % 60)

/-- The RFC 3339 form. There is none for a year outside of four digits, an offset of a day or more
or one with seconds. -/
def standardText? (t : Instant) : Option String :=
  let date := t.localDate
  let second := t.localSecond
  let (offsetHours, offsetMinutes, offsetSeconds) := t.offsetParts
  if 0 ≤ date.year ∧ date.year < 10000 ∧ offsetHours ≤ 23 ∧ offsetSeconds = 0 then
    let fraction := if t.nanos = 0 then [] else '.' :: fractionDigits t.nanos
    let offset :=
      if t.offset = 0 then ['Z']
      else
        (if t.offset < 0 then '-' else '+') :: padded 2 offsetHours
          ++ ':' :: padded 2 offsetMinutes
    some (String.ofList (
      padded 4 date.year.toNat ++ '-' :: padded 2 date.month ++ '-' :: padded 2 date.day
        ++ 'T' :: padded 2 (second / 3600) ++ ':' :: padded 2 (second / 60 % 60)
        ++ ':' :: padded 2 (second % 60) ++ fraction ++ offset))
  else none

/-- The long form: date, time with at least one digit of fraction, and offset with seconds. -/
def longText (t : Instant) : String :=
  let date := t.localDate
  let second := t.localSecond
  let (offsetHours, offsetMinutes, offsetSeconds) := t.offsetParts
  let sign :=
    if date.year < 0 then ['-'] else if date.year < 10000 then [] else ['+']
  let fraction := if t.nanos = 0 then ['0'] else fractionDigits t.nanos
  String.ofList (
    sign ++ padded 4 date.year.natAbs ++ '-' :: padded 2 date.month ++ '-' :: padded 2 date.day
      ++ ' ' :: Decimal.digitChars (second / 3600) ++ ':' :: padded 2 (second / 60 % 60)
      ++ ':' :: padded 2 (second % 60) ++ '.' :: fraction
      ++ ' ' :: (if t.offset < 0 then '-' else '+') :: padded 2 offsetHours
      ++ ':' :: padded 2 offsetMinutes ++ ':' :: padded 2 offsetSeconds)

/-- The RFC 3339 form, or the long form where there is none. -/
def text (t : Instant) : String :=
  t.standardText?.getD t.longText

end Instant

end ModelGateway.Time
