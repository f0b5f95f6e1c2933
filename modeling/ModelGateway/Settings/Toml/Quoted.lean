import ModelGateway.Text.Hex

/-!
# Quoted texts of TOML

Four kinds of quotes: double quotes allow escapes and single ones do not, three of either allow line
breaks. Every reader starts after the opening quotes and returns what follows the closing ones; the
characters seen so far are kept in reverse.
-/

namespace ModelGateway.Toml

/-- Whether a character may stand for itself: a tab, or none of the control characters. -/
def isPlain (c : Char) : Bool :=
  c == '\t' || (0x20 ≤ c.toNat && c.toNat != 0x7f)

/-- Whether a character is a blank within a line. -/
def isBlank (c : Char) : Bool :=
  c == ' ' || c == '\t'

/-- The character that a one-letter escape stands for. -/
def escaped? (c : Char) : Option Char :=
  match c with
  | 'b' => some (Char.ofNat 8)
  | 't' => some '\t'
  | 'n' => some '\n'
  | 'f' => some (Char.ofNat 12)
  | 'r' => some '\r'
  | '"' => some '"'
  | '\\' => some '\\'
  | _ => none

/-- The character with a given number. -/
def scalar? (n : Nat) : Option Char :=
  if n.isValidChar then some (Char.ofNat n) else none

/-- The character of an escape with four digits. -/
def short? (a b c d : Char) : Option Char :=
  (Text.hexNumber? [a, b, c, d]).bind scalar?

/-- The character of an escape with eight digits. -/
def long? (a b c d e f g h : Char) : Option Char :=
  (Text.hexNumber? [a, b, c, d, e, f, g, h]).bind scalar?

/-- A text and what follows it. -/
def finish (seen rest : List Char) : String × List Char :=
  (String.ofList seen.reverse, rest)

/-! ## One line -/

/-- A text in double quotes. -/
def readDouble? : (seen : List Char) → List Char → Option (String × List Char)
  | _, [] => none
  | seen, '"' :: rest => some (finish seen rest)
  | seen, '\\' :: 'u' :: a :: b :: c :: d :: rest => do
    readDouble? ((← short? a b c d) :: seen) rest
  | seen, '\\' :: 'U' :: a :: b :: c :: d :: e :: f :: g :: h :: rest => do
    readDouble? ((← long? a b c d e f g h) :: seen) rest
  | seen, '\\' :: c :: rest => do readDouble? ((← escaped? c) :: seen) rest
  | seen, c :: rest => if isPlain c && c != '\\' then readDouble? (c :: seen) rest else none

/-- A text in single quotes. -/
def readSingle? : (seen : List Char) → List Char → Option (String × List Char)
  | _, [] => none
  | seen, '\'' :: rest => some (finish seen rest)
  | seen, c :: rest => if isPlain c then readSingle? (c :: seen) rest else none

/-! ## Several lines -/

/-- Ends a text of several lines; up to two quotes right after the closing ones belong to it. -/
def closeLines (quote : Char) (seen : List Char) : List Char → String × List Char
  | a :: b :: rest =>
    if a == quote && b == quote then finish (quote :: quote :: seen) rest
    else if a == quote then finish (quote :: seen) (b :: rest)
    else finish seen (a :: b :: rest)
  | [a] => if a == quote then finish (quote :: seen) [] else finish seen [a]
  | [] => finish seen []

/-- Where a text of several lines stands: in its text, after a backslash that ends a line, or among
the blanks that such a backslash swallows. -/
inductive LineMode where
  | text
  | lineEnd
  | blanks
deriving DecidableEq

/-- A text in three double quotes. -/
def readDoubleLines? : LineMode → (seen : List Char) → List Char → Option (String × List Char)
  | _, _, [] => none
  | .lineEnd, seen, c :: rest =>
    if c == '\n' then readDoubleLines? .blanks seen rest
    else if isBlank c || (c == '\r' && rest.head? == some '\n') then
      readDoubleLines? .lineEnd seen rest
    else none
  | _, seen, '"' :: '"' :: '"' :: rest => some (closeLines '"' seen rest)
  | _, seen, '\\' :: 'u' :: a :: b :: c :: d :: rest => do
    readDoubleLines? .text ((← short? a b c d) :: seen) rest
  | _, seen, '\\' :: 'U' :: a :: b :: c :: d :: e :: f :: g :: h :: rest => do
    readDoubleLines? .text ((← long? a b c d e f g h) :: seen) rest
  | _, seen, '\\' :: c :: rest =>
    if c == '\n' then readDoubleLines? .blanks seen rest
    else if isBlank c || c == '\r' then readDoubleLines? .lineEnd seen (c :: rest)
    else do readDoubleLines? .text ((← escaped? c) :: seen) rest
  | .blanks, seen, c :: rest =>
    if isBlank c || c == '\n' || (c == '\r' && rest.head? == some '\n') then
      readDoubleLines? .blanks seen rest
    else if isPlain c && c != '\\' then readDoubleLines? .text (c :: seen) rest
    else none
  | .text, seen, c :: rest =>
    if c == '\n' then readDoubleLines? .text ('\n' :: seen) rest
    else if c == '\r' && rest.head? == some '\n' then readDoubleLines? .text seen rest
    else if isPlain c && c != '\\' then readDoubleLines? .text (c :: seen) rest
    else none

/-- A text in three single quotes. -/
def readSingleLines? : (seen : List Char) → List Char → Option (String × List Char)
  | _, [] => none
  | seen, '\'' :: '\'' :: '\'' :: rest => some (closeLines '\'' seen rest)
  | seen, c :: rest =>
    if c == '\n' then readSingleLines? ('\n' :: seen) rest
    else if c == '\r' && rest.head? == some '\n' then readSingleLines? seen rest
    else if isPlain c then readSingleLines? (c :: seen) rest
    else none

/-- Drops a line break that comes first. -/
def dropLineBreak : List Char → List Char
  | '\n' :: rest => rest
  | '\r' :: '\n' :: rest => rest
  | cs => cs

/-- Reads a quoted text with its quotes; one of several lines only where `lines` allows it. -/
def readQuoted? (lines : Bool) : List Char → Option (String × List Char)
  | '"' :: '"' :: '"' :: rest =>
    if lines then readDoubleLines? .text [] (dropLineBreak rest) else none
  | '\'' :: '\'' :: '\'' :: rest => if lines then readSingleLines? [] (dropLineBreak rest) else none
  | '"' :: rest => readDouble? [] rest
  | '\'' :: rest => readSingle? [] rest
  | _ => none

end ModelGateway.Toml
