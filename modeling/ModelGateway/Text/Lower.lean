import ModelGateway.Text.CaseTable

/-!
# Lower case

The lower-case form of a character may be two characters; that of a text also depends on where a
sigma stands. `lowerFirst` is the naming rule between a model and its delegate.
-/

namespace ModelGateway.Text

/-- The simple lower-case form of a character. -/
def lowerSimple (c : Char) : Char :=
  let n := c.toNat
  if n < 0x80 then if 0x41 ≤ n ∧ n ≤ 0x5A then Char.ofNat (n + 32) else c
  else
    match lowerRanges.find? fun r => r.first ≤ n && n ≤ r.last && (n - r.first) % r.step == 0 with
    | some r => Char.ofNat (n + r.shift).toNat
    | none => c

/-- The lower-case form of a character by itself. The dotted capital I keeps its dot as a
combining mark. -/
def lowerChar (c : Char) : List Char :=
  if c.toNat = 0x130 then ['i', Char.ofNat 0x307] else [lowerSimple c]

/-- Whether a character lies in one of the runs. -/
def inRanges (ranges : List (Nat × Nat)) (c : Char) : Bool :=
  ranges.any fun r => r.1 ≤ c.toNat && c.toNat ≤ r.2

/-- Whether the first character that casing does not look past is a cased one. -/
def leadsCased (cs : List Char) : Bool :=
  match cs.dropWhile (inRanges ignorableRanges) with
  | c :: _ => inRanges casedRanges c
  | [] => false

/-- The lower-case form of the rest of a text, given what precedes it in reverse. A capital sigma
that ends a word becomes the final form. -/
def lowerFrom : List Char → List Char → List Char
  | _, [] => []
  | before, c :: rest =>
    let here :=
      if c.toNat = 0x3A3 then
        if leadsCased before && !leadsCased rest then [Char.ofNat 0x3C2] else [Char.ofNat 0x3C3]
      else lowerChar c
    here ++ lowerFrom (c :: before) rest

/-- The lower-case form of a text. -/
def lower (s : String) : String :=
  String.ofList (lowerFrom [] s.toList)

/-- Lower-cases the first character: `LeaderboardRow` becomes `leaderboardRow`. -/
def lowerFirst (s : String) : String :=
  match s.toList with
  | [] => ""
  | c :: rest => String.ofList (lowerChar c ++ rest)

/-- The lower-case form of the ASCII letters alone. -/
def lowerAscii (s : String) : String :=
  String.ofList (s.toList.map Char.toLower)

/-- Whether `part` occurs in `whole` at its start. -/
def startsWith (whole part : String) : Bool :=
  part.toList.isPrefixOf whole.toList

/-- Whether `part` occurs in `whole` at its end. -/
def endsWith (whole part : String) : Bool :=
  part.toList.isSuffixOf whole.toList

/-- Whether `part` occurs among the characters of a text. -/
def occursIn (part : List Char) : List Char → Bool
  | [] => part.isEmpty
  | c :: rest => part.isPrefixOf (c :: rest) || occursIn part rest

/-- Whether `part` occurs in `whole`. -/
def contains (whole part : String) : Bool :=
  occursIn part.toList whole.toList

end ModelGateway.Text
