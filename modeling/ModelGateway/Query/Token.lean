import ModelGateway.Json.Reader
import ModelGateway.Query.Executable

/-!
# Tokens of request texts

A request text is split into punctuation, names, numbers and texts, each with its place. Commas,
blanks and comments separate tokens and mean nothing. A text is written in quotes on one line, or in
triple quotes over several lines, whose common indentation does not count.
-/

namespace ModelGateway.Query

/-- A lexical unit. -/
inductive Token where
  | punctuation (char : Char)
  | spread
  | name (text : String)
  | number (value : Number)
  | text (value : String)

/-- A token with its place. -/
structure Placed where
  token : Token
  position : Position

namespace Position

/-- The beginning of a text. -/
def start : Position := ⟨1, 1⟩

/-- The place after a character. -/
def after (p : Position) (c : Char) : Position :=
  if c = '\n' then ⟨p.line + 1, 1⟩
  else if c = '\r' then ⟨p.line, 1⟩
  else ⟨p.line, p.column + 1⟩

/-- The place after some characters of one line. -/
def skip (p : Position) (count : Nat) : Position :=
  ⟨p.line, p.column + count⟩

end Position

/-! ## Block texts -/

/-- Splits a text into lines, each in reverse; the lines are in reverse, too. -/
def splitLines : List Char → List Char → List (List Char) → List (List Char)
  | [], line, lines => line :: lines
  | '\r' :: '\n' :: rest, line, lines => splitLines rest [] (line :: lines)
  | c :: rest, line, lines =>
    if c = '\n' ∨ c = '\r' then splitLines rest [] (line :: lines)
    else splitLines rest (c :: line) lines

/-- The lines of a text. -/
def linesOf (cs : List Char) : List (List Char) :=
  (splitLines cs [] []).reverse.map List.reverse

/-- Whether a character indents. -/
def isIndent (c : Char) : Bool := c == ' ' || c == '\t'

/-- Whether a line holds nothing but indentation. -/
def isBlankLine (line : List Char) : Bool := line.all isIndent

/-- The indentation that all lines after the first share, lines without content apart. -/
def commonIndent (lines : List (List Char)) : Nat :=
  let indents :=
    ((lines.drop 1).filter (!isBlankLine ·)).map fun line => (line.takeWhile isIndent).length
  match indents with
  | [] => 0
  | first :: rest => rest.foldl min first

/-- A line after the first without the common indentation. -/
def unindent (indent : Nat) (line : List Char) : List Char :=
  if indent ≤ line.length then line.drop indent else line

/-- The value of a block text: without the common indentation and without blank lines at either
end. -/
def blockValue (cs : List Char) : List Char :=
  let lines := linesOf cs
  let indent := commonIndent lines
  let unindented :=
    match lines with
    | [] => []
    | first :: rest => first :: rest.map (unindent indent)
  let marked := unindented.zip (lines.map isBlankLine)
  let trimmed := ((marked.dropWhile (·.2)).reverse.dropWhile (·.2)).reverse
  List.intercalate ['\n'] (trimmed.map (·.1))

/-! ## Scanning -/

/-- What the scanner is inside of, with the characters seen so far in reverse and the place where it
began. -/
inductive Mode where
  | gap
  | comment
  | name (seen : List Char) (start : Position)
  | number (seen : List Char) (start : Position)
  | text (seen : List Char) (start : Position)
  | block (seen : List Char) (start : Position)

/-- Whether a character may begin a name. -/
def isNameStart (c : Char) : Bool := c.isAlpha || c == '_'

/-- Whether a character may go on with a name. -/
def isNameChar (c : Char) : Bool := c.isAlphanum || c == '_'

/-- Whether a character separates tokens. -/
def isSeparator (c : Char) : Bool :=
  c == ' ' || c == ',' || c == '\t' || c == '\n' || c == '\r' || c.toNat == 0xFEFF

/-- Whether a character is a token of its own. -/
def isPunctuation (c : Char) : Bool :=
  "!$&():=@[]|".toList.contains c || c.toNat == 0x7b || c.toNat == 0x7d

/-- A character between tokens: its token, if it is one, and what it begins. -/
def start? (c : Char) (at_ : Position) : Option (List Placed × Mode) :=
  if isSeparator c then some ([], .gap)
  else if c = '#' then some ([], .comment)
  else if isPunctuation c then some ([⟨.punctuation c, at_⟩], .gap)
  else if isNameStart c then some ([], .name [c] at_)
  else if c = '-' ∨ c.isDigit then some ([], .number [c] at_)
  else none

/-- The token of a finished name. -/
def nameToken (seen : List Char) (at_ : Position) : Placed :=
  ⟨.name (String.ofList seen.reverse), at_⟩

/-- The token of a finished number. -/
def numberToken? (seen : List Char) (at_ : Position) : Option Placed :=
  (Number.read? seen.reverse).map fun n => ⟨.number n, at_⟩

/-- The character that an escape of four hexadecimal digits stands for; half a character is none. -/
def unicodeChar? (a b c d : Char) : Option Char := do
  let unit ← Text.hexNumber? [a, b, c, d]
  if 0xD800 ≤ unit ∧ unit < 0xE000 then none else some (Char.ofNat unit)

/-- Splits a text into tokens, which are collected in reverse. -/
def scan : Mode → Position → List Placed → List Char → Option (List Placed)
  | .gap, _, out, [] | .comment, _, out, [] => some out.reverse
  | .name seen start, _, out, [] => some (nameToken seen start :: out).reverse
  | .number seen start, _, out, [] => do some ((← numberToken? seen start) :: out).reverse
  | .text _ _, _, _, [] | .block _ _, _, _, [] => none
  | .gap, at_, out, '"' :: '"' :: '"' :: rest => scan (.block [] at_) (at_.skip 3) out rest
  | .gap, at_, out, '"' :: rest => scan (.text [] at_) (at_.skip 1) out rest
  | .gap, at_, out, '.' :: '.' :: '.' :: rest => scan .gap (at_.skip 3) (⟨.spread, at_⟩ :: out) rest
  | .gap, at_, out, c :: rest => do
    let (tokens, mode) ← start? c at_
    scan mode (at_.after c) (tokens ++ out) rest
  | .comment, at_, out, c :: rest =>
    scan (if c = '\n' ∨ c = '\r' then .gap else .comment) (at_.after c) out rest
  | .name seen start, at_, out, '.' :: '.' :: '.' :: rest =>
    scan .gap (at_.skip 3) (⟨.spread, at_⟩ :: nameToken seen start :: out) rest
  | .name seen start, at_, out, c :: rest =>
    if isNameChar c then scan (.name (c :: seen) start) (at_.after c) out rest
    else do
      let (tokens, mode) ← if c = '"' then none else start? c at_
      scan mode (at_.after c) (tokens ++ nameToken seen start :: out) rest
  | .number seen start, at_, out, '.' :: '.' :: '.' :: rest => do
    scan .gap (at_.skip 3) (⟨.spread, at_⟩ :: (← numberToken? seen start) :: out) rest
  | .number seen start, at_, out, c :: rest =>
    if Json.Token.isNumberChar c then scan (.number (c :: seen) start) (at_.after c) out rest
    else if isNameStart c then none
    else do
      let token ← numberToken? seen start
      let (tokens, mode) ← if c = '"' then none else start? c at_
      scan mode (at_.after c) (tokens ++ token :: out) rest
  | .text seen start, at_, out, '\\' :: 'u' :: a :: b :: c :: d :: rest => do
    scan (.text ((← unicodeChar? a b c d) :: seen) start) (at_.skip 6) out rest
  | .text seen start, at_, out, '\\' :: c :: rest => do
    scan (.text ((← Json.Token.escaped? c) :: seen) start) (at_.skip 2) out rest
  | .text seen start, at_, out, c :: rest =>
    if c = '"' then scan .gap (at_.skip 1) (⟨.text (String.ofList seen.reverse), start⟩ :: out) rest
    else if c = '\n' ∨ c = '\r' ∨ c = '\\' then none
    else scan (.text (c :: seen) start) (at_.after c) out rest
  | .block seen start, at_, out, '\\' :: '"' :: '"' :: '"' :: rest =>
    scan (.block ('"' :: '"' :: '"' :: seen) start) (at_.skip 4) out rest
  | .block seen start, at_, out, '"' :: '"' :: '"' :: rest =>
    scan .gap (at_.skip 3) (⟨.text (String.ofList (blockValue seen.reverse)), start⟩ :: out) rest
  | .block seen start, at_, out, c :: rest => scan (.block (c :: seen) start) (at_.after c) out rest

/-- The tokens of a text. -/
def tokensOf? (text : String) : Option (List Placed) :=
  scan .gap .start [] text.toList

end ModelGateway.Query
