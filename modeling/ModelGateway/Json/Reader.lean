import ModelGateway.Json.Source
import ModelGateway.Text.Hex

/-!
# Reading JSON

Text becomes tokens (`Json.Token.scan`), tokens are folded into a tree by a machine whose state is
the stack of open lists and objects (`Json.Building.step`). `Source.read?` gives the tree as
written, `Json.read?` its value.
-/

namespace ModelGateway

namespace Json

/-- A lexical unit. A number or a text without a value is still a lexical unit. -/
inductive Token where
  | openList
  | closeList
  | openObject
  | closeObject
  | comma
  | colon
  | text (value : Option String)
  | number (value : Option Number)
  | word (value : Source)

namespace Token

/-- What the scanner is inside of. Characters seen so far are kept in reverse. -/
inductive Mode where
  | gap
  | number (seen : List Char)
  /-- Inside a word that stands for a value: the next letter and those after it. -/
  | word (next : Char) (left : List Char) (value : Source)
  /-- Inside quotes. The text seen is none once half a character stood alone; `high` is a high
  surrogate that awaits its low one. -/
  | quotes (seen : Option (List Char)) (high : Option Nat)

/-- The characters a number may consist of. -/
def isNumberChar (c : Char) : Bool :=
  c.isDigit || c == '-' || c == '+' || c == '.' || c == 'e' || c == 'E'

/-- The four blank characters. -/
def isBlank (c : Char) : Bool :=
  c == ' ' || c == '\n' || c == '\r' || c == '\t'

/-- A character outside of numbers, words and quotes: its token, if it is one, and what it
begins. -/
def start? (c : Char) : Option (List Token × Mode) :=
  if isBlank c then some ([], .gap)
  else if c = '[' then some ([.openList], .gap)
  else if c = ']' then some ([.closeList], .gap)
  else if c.toNat = 0x7b then some ([.openObject], .gap)
  else if c.toNat = 0x7d then some ([.closeObject], .gap)
  else if c = ',' then some ([.comma], .gap)
  else if c = ':' then some ([.colon], .gap)
  else if c = '"' then some ([], .quotes (some []) none)
  else if c = '-' ∨ c.isDigit then some ([], .number [c])
  else if c = 'n' then some ([], .word 'u' ['l', 'l'] .null)
  else if c = 't' then some ([], .word 'r' ['u', 'e'] (.bool true))
  else if c = 'f' then some ([], .word 'a' ['l', 's', 'e'] (.bool false))
  else none

/-- The number that a run of number characters begins with, and whether it is the whole run. -/
def ofNumber? (seen : List Char) : Option (Token × Bool) :=
  (Number.readParts? seen.reverse).map fun (parts, rest) =>
    (.number (Number.ofParts? parts), rest.isEmpty)

/-- Takes an escaped code unit. A low surrogate completes the high one before it; neither stands
alone. -/
def takeUnit (seen : Option (List Char)) (high : Option Nat) (unit : Nat) : Mode :=
  match high with
  | some h =>
    if 0xDC00 ≤ unit ∧ unit < 0xE000 then
      .quotes (seen.map (Char.ofNat (0x10000 + (h - 0xD800) * 0x400 + (unit - 0xDC00)) :: ·)) none
    else .quotes none none
  | none =>
    if 0xD800 ≤ unit ∧ unit < 0xDC00 then .quotes seen (some unit)
    else if 0xDC00 ≤ unit ∧ unit < 0xE000 then .quotes none none
    else .quotes (seen.map (Char.ofNat unit :: ·)) none

/-- Takes a character inside quotes. -/
def takeChar (seen : Option (List Char)) (high : Option Nat) (c : Char) : Mode :=
  match high with
  | some _ => .quotes none none
  | none => .quotes (seen.map (c :: ·)) none

/-- The character that a one-letter escape stands for. -/
def escaped? (c : Char) : Option Char :=
  match c with
  | '"' => some '"'
  | '\\' => some '\\'
  | '/' => some '/'
  | 'b' => some (Char.ofNat 8)
  | 'f' => some (Char.ofNat 12)
  | 'n' => some '\n'
  | 'r' => some '\r'
  | 't' => some '\t'
  | _ => none

/-- The text between quotes, at the closing one. -/
def closeQuotes (seen : Option (List Char)) (high : Option Nat) : Token :=
  match high with
  | some _ => .text none
  | none => .text (seen.map fun cs => String.ofList cs.reverse)

/-- The tokens of a text as far as it consists of tokens. -/
structure Scan where
  tokens : List Token
  /-- Whether the tokens are those of the whole text. -/
  complete : Bool

/-- The scan of a text that breaks off after some tokens, which are in reverse. -/
def Scan.broken (out : List Token) : Scan :=
  { tokens := out.reverse, complete := false }

/-- The scan of a text that ends with a run of number characters. -/
def Scan.ended (out : List Token) : Option (Token × Bool) → Scan
  | some (token, complete) => { tokens := (token :: out).reverse, complete }
  | none => .broken out

/-- Splits a text into tokens, which are collected in reverse. -/
def scan : Mode → List Token → List Char → Scan
  | .gap, out, [] => { tokens := out.reverse, complete := true }
  | .number seen, out, [] => .ended out (ofNumber? seen)
  | .word _ _ _, out, [] => .broken out
  | .quotes _ _, out, [] => .broken out
  | .gap, out, c :: rest =>
    match start? c with
    | some (tokens, mode) => scan mode (tokens ++ out) rest
    | none => .broken out
  | .number seen, out, c :: rest =>
    if isNumberChar c then scan (.number (c :: seen)) out rest
    else
      match ofNumber? seen, start? c with
      | some (token, true), some (tokens, mode) => scan mode (tokens ++ token :: out) rest
      | some (token, _), _ => .broken (token :: out)
      | none, _ => .broken out
  | .word next left value, out, c :: rest =>
    if c = next then
      match left with
      | [] => scan .gap (.word value :: out) rest
      | next :: left => scan (.word next left value) out rest
    else .broken out
  | .quotes seen high, out, '\\' :: 'u' :: a :: b :: c :: d :: rest =>
    match Text.hexNumber? [a, b, c, d] with
    | some unit => scan (takeUnit seen high unit) out rest
    | none => .broken out
  | .quotes seen high, out, '\\' :: c :: rest =>
    match escaped? c with
    | some c => scan (takeChar seen high c) out rest
    | none => .broken out
  | .quotes seen high, out, c :: rest =>
    if c = '"' then scan .gap (closeQuotes seen high :: out) rest
    else if c.toNat < 32 then .broken out
    else scan (takeChar seen high c) out rest

/-- The tokens of a text. -/
def ofText (text : String) : Scan :=
  scan .gap [] text.toList

end Token

/-! ## Building -/

/-- An open list or object with what it holds so far, in reverse. An object also has the name whose
value comes next. -/
inductive Frame where
  | list (items : List Source)
  | object (entries : List (Option String × Source)) (name : Option String)

/-- What may come next. -/
inductive Awaited where
  /-- A value. -/
  | value
  /-- The first item of a list, or its end. -/
  | firstItem
  /-- A name. -/
  | name
  /-- The first name of an object, or its end. -/
  | firstName
  /-- The colon after a name. -/
  | colon
  /-- A comma or the end of the innermost list or object. -/
  | comma
  /-- Nothing: the tree is complete. -/
  | nothing (result : Source)

/-- The state of the machine: the open lists and objects, innermost first. -/
structure Building where
  frames : List Frame
  awaited : Awaited

namespace Building

/-- Puts a finished tree into the innermost frame. -/
def place : List Frame → Source → Building
  | [], tree => ⟨[], .nothing tree⟩
  | .list items :: outer, tree => ⟨.list (tree :: items) :: outer, .comma⟩
  | .object entries name :: outer, tree => ⟨.object ((name, tree) :: entries) name :: outer, .comma⟩

/-- The first token of a value. -/
def startValue? (frames : List Frame) : Token → Option Building
  | .openList => some ⟨.list [] :: frames, .firstItem⟩
  | .openObject => some ⟨.object [] none :: frames, .firstName⟩
  | .text s => some (place frames (.str s))
  | .number n => some (place frames (.num n))
  | .word w => some (place frames w)
  | _ => none

/-- Closes a list. -/
def closeList (outer : List Frame) (items : List Source) : Building :=
  place outer (.arr (outer.length + 1) items.reverse)

/-- Closes an object. -/
def closeObject (outer : List Frame) (entries : List (Option String × Source)) : Building :=
  place outer (.obj (outer.length + 1) entries.reverse)

/-- One token. -/
def step : Building → Token → Option Building
  | ⟨.list items :: outer, .firstItem⟩, .closeList
  | ⟨.list items :: outer, .comma⟩, .closeList => some (closeList outer items)
  | ⟨.object entries _ :: outer, .firstName⟩, .closeObject
  | ⟨.object entries _ :: outer, .comma⟩, .closeObject => some (closeObject outer entries)
  | ⟨.list items :: outer, .comma⟩, .comma => some ⟨.list items :: outer, .value⟩
  | ⟨.object entries name :: outer, .comma⟩, .comma => some ⟨.object entries name :: outer, .name⟩
  | ⟨.object entries _ :: outer, .firstName⟩, .text name
  | ⟨.object entries _ :: outer, .name⟩, .text name => some ⟨.object entries name :: outer, .colon⟩
  | ⟨frames, .colon⟩, .colon => some ⟨frames, .value⟩
  | ⟨frames, .value⟩, token => startValue? frames token
  | ⟨frames, .firstItem⟩, token => startValue? frames token
  | _, _ => none

/-- Builds the tree that a list of tokens spells. -/
def run (tokens : List Token) : Option Source := do
  match (← tokens.foldlM step ⟨[], .value⟩).awaited with
  | .nothing tree => some tree
  | _ => none

end Building

end Json

/-- Reads a text that is one JSON value, as written. -/
def Source.read? (text : String) : Option Source :=
  let scan := Json.Token.ofText text
  if scan.complete then Json.Building.run scan.tokens else none

/-- Reads a text that is one JSON value. -/
def Json.read? (text : String) : Option Json := do
  (← Source.read? text).toJson?

end ModelGateway
