import ModelGateway.Json.Basic

/-!
# Printing JSON

The compact text of a value: no spaces, control characters escaped, everything else as it is.
-/

namespace ModelGateway

namespace Json

/-- A hexadecimal digit. -/
def hexDigit (n : Nat) : Char :=
  "0123456789abcdef".toList.getD n '0'

/-- How a character is written inside quotes. -/
def quotedChar (c : Char) : List Char :=
  if c = '"' then ['\\', '"']
  else if c = '\\' then ['\\', '\\']
  else if c = '\n' then ['\\', 'n']
  else if c = '\r' then ['\\', 'r']
  else if c = '\t' then ['\\', 't']
  else if c.toNat = 8 then ['\\', 'b']
  else if c.toNat = 12 then ['\\', 'f']
  else if c.toNat < 32 then ['\\', 'u', '0', '0', hexDigit (c.toNat / 16), hexDigit (c.toNat % 16)]
  else [c]

/-- A text in quotes. -/
def quoted (s : String) : String :=
  String.ofList ('"' :: s.toList.flatMap quotedChar ++ ['"'])

mutual

/-- The compact text of a value. -/
def text : Json → String
  | .null => "null"
  | .bool true => "true"
  | .bool false => "false"
  | .num n => n.text
  | .str s => quoted s
  | .arr items => "[" ++ String.intercalate "," (itemTexts items) ++ "]"
  | .obj entries => "\x7b" ++ String.intercalate "," (entryTexts entries) ++ "\x7d"

/-- The texts of items. -/
def itemTexts : List Json → List String
  | [] => []
  | x :: xs => text x :: itemTexts xs

/-- The texts of entries. -/
def entryTexts : List (String × Json) → List String
  | [] => []
  | (k, x) :: xs => (quoted k ++ ":" ++ text x) :: entryTexts xs

end

end Json

end ModelGateway
