import ModelGateway.Json.Decimal
import ModelGateway.Text.Hex

/-!
# Network addresses

IP addresses of both versions, read from their usual written forms and written in the shortest one,
and with a port as socket addresses.
-/

namespace ModelGateway

/-- An IP address. -/
inductive IpAddress where
  | v4 (a b c d : UInt8)
  /-- Eight groups of 16 bits. -/
  | v6 (groups : Vector UInt16 8)
deriving DecidableEq

namespace IpAddress

/-- The address of all interfaces. -/
def anyInterface : IpAddress := .v4 0 0 0 0

instance : Inhabited IpAddress := ⟨anyInterface⟩

/-! ## Reading -/

/-- Splits a text at each occurrence of a mark. -/
def splitAt (mark : Char) : List Char → List (List Char)
  | [] => [[]]
  | c :: rest =>
    if c = mark then [] :: splitAt mark rest
    else
      match splitAt mark rest with
      | first :: more => (c :: first) :: more
      | [] => [[c]]

/-- A decimal number of one byte without leading zeros. -/
def byte? (cs : List Char) : Option UInt8 :=
  let n := Decimal.ofDigitChars cs
  if cs.length ≤ 3 && cs.all Char.isDigit && cs == Decimal.digitChars n && n < 256 then
    some n.toUInt8
  else none

/-- Four bytes with points between them. -/
def readFour? (cs : List Char) : Option (UInt8 × UInt8 × UInt8 × UInt8) :=
  match splitAt '.' cs with
  | [a, b, c, d] => do return (← byte? a, ← byte? b, ← byte? c, ← byte? d)
  | _ => none

/-- One to four digits in base sixteen. -/
def group? (cs : List Char) : Option UInt16 :=
  if 1 ≤ cs.length && cs.length ≤ 4 then (Text.hexNumber? cs).map Nat.toUInt16 else none

/-- Two bytes as one group. -/
def joined (high low : UInt8) : UInt16 :=
  (high.toNat * 256 + low.toNat).toUInt16

/-- The groups of written ones; the last may be an address of four bytes if `mixed` allows it. -/
def groups? (mixed : Bool) : List (List Char) → Option (List UInt16)
  | [] => some []
  | [last] =>
    match (if mixed then readFour? last else none) with
    | some (a, b, c, d) => some [joined a b, joined c d]
    | none => (group? last).map ([·])
  | first :: rest => do return (← group? first) :: (← groups? mixed rest)

/-- The groups of a text with colons between them, none if it is empty. -/
def readGroups? (mixed : Bool) (cs : List Char) : Option (List UInt16) :=
  if cs.isEmpty then some [] else groups? mixed (splitAt ':' cs)

/-- Splits a text at its first double colon. -/
def splitGap? : List Char → Option (List Char × List Char)
  | ':' :: ':' :: rest => some ([], rest)
  | c :: rest => (splitGap? rest).map fun (before, after) => (c :: before, after)
  | [] => none

/-- The address with the given groups, if they are eight. -/
def ofGroups? (groups : List UInt16) : Option IpAddress :=
  if h : groups.length = 8 then some (.v6 ⟨groups.toArray, by simpa using h⟩) else none

/-- Reads groups; a double colon stands for the groups that are missing, of which there is at least
one. -/
def readV6? (cs : List Char) : Option IpAddress :=
  match splitGap? cs with
  | none => (readGroups? true cs).bind ofGroups?
  | some (before, after) => do
    let head ← readGroups? false before
    let tail ← readGroups? true after
    if head.length + tail.length ≤ 7 then
      ofGroups? (head ++ List.replicate (8 - head.length - tail.length) 0 ++ tail)
    else none

/-- Reads an address of either version. -/
def read? (s : String) : Option IpAddress :=
  match readFour? s.toList with
  | some (a, b, c, d) => some (.v4 a b c d)
  | none => readV6? s.toList

/-! ## Writing -/

/-- A number in base ten. -/
def decimalChars (n : Nat) : List Char := Decimal.digitChars n

/-- Four bytes with points between them. -/
def fourChars (a b c d : UInt8) : List Char :=
  decimalChars a.toNat ++ '.' :: decimalChars b.toNat ++ '.' :: decimalChars c.toNat
    ++ '.' :: decimalChars d.toNat

/-- Groups in base sixteen with colons between them. -/
def groupChars (groups : List UInt16) : List Char :=
  List.intercalate [':'] (groups.map fun g => Nat.toDigits 16 g.toNat)

/-- The number of zeros that a list starts with. -/
def leadingZeros (groups : List UInt16) : Nat :=
  (groups.takeWhile (· == 0)).length

/-- The start and the length of the longest run of zeros, of several the first. -/
def longestZeros : List UInt16 → Nat × Nat
  | [] => (0, 0)
  | g :: rest =>
    let here := leadingZeros (g :: rest)
    let (start, length) := longestZeros rest
    if length ≤ here then (0, here) else (start + 1, length)

/-- Groups with the longest run of two or more zeros left out. -/
def shortChars (groups : List UInt16) : List Char :=
  let (start, length) := longestZeros groups
  if length ≤ 1 then groupChars groups
  else groupChars (groups.take start) ++ ':' :: ':' :: groupChars (groups.drop (start + length))

/-- The text of an address. One that stands for an address of version 4 ends in the four bytes. -/
def text : IpAddress → String
  | .v4 a b c d => String.ofList (fourChars a b c d)
  | .v6 groups =>
    match groups.toList with
    | [0, 0, 0, 0, 0, 0xffff, x, y] =>
      String.ofList ("::ffff:".toList
        ++ fourChars (x.toNat / 256).toUInt8 x.toUInt8 (y.toNat / 256).toUInt8 y.toUInt8)
    | list => String.ofList (shortChars list)

end IpAddress

/-- An address with a port. -/
structure SocketAddress where
  host : IpAddress
  port : UInt16
deriving DecidableEq

namespace SocketAddress

/-- The address of a host by its written address; any other name means all interfaces. -/
def ofHost (host : String) (port : UInt16) : SocketAddress :=
  { host := (IpAddress.read? host).getD .anyInterface, port }

/-- The text of an address; the colons of version 6 are kept apart from that of the port. -/
def text (s : SocketAddress) : String :=
  let port := toString s.port.toNat
  match s.host with
  | .v4 _ _ _ _ => s!"{s.host.text}:{port}"
  | .v6 _ => s!"[{s.host.text}]:{port}"

end SocketAddress

end ModelGateway
