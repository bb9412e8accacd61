import CallContract.Decimal.Shortest
import CallContract.Json.Basic

/-!
# Writing JSON

* `Json.compact` writes a value without blanks.
* `Json.pretty` writes it over lines, indented by two spaces a level; empty containers stay together.
* Strings escape quotes, backslashes and the characters below U+0020, and nothing else.
* Floats are written by `Json.floatLayout` with the fewest digits that read back.
-/

namespace CallContract.Json

/-- Floats are positional from `10 ^ -5` up to, and not including, `10 ^ 16`. -/
def floatLayout : Layout := ⟨-5, 16⟩

/-- The text of a number. -/
def Number.write : Number → List Char
  | .int i _ => Decimal.intNumeral i
  | .float x => floatLayout.write x

/-- A hexadecimal digit in lower case. -/
def hexDigit (n : Nat) : Char :=
  if n < 10 then Char.ofNat (48 + n) else Char.ofNat (87 + n)

/-- A character inside a string literal. -/
def escape (c : Char) : List Char :=
  if c = '"' then ['\\', '"']
  else if c = '\\' then ['\\', '\\']
  else if c = '\x08' then ['\\', 'b']
  else if c = '\t' then ['\\', 't']
  else if c = '\n' then ['\\', 'n']
  else if c = '\x0c' then ['\\', 'f']
  else if c = '\r' then ['\\', 'r']
  else if c.toNat < 0x20 then
    ['\\', 'u', '0', '0', hexDigit (c.toNat / 16), hexDigit (c.toNat % 16)]
  else [c]

/-- A string literal. -/
def quote (s : List Char) : List Char :=
  '"' :: s.flatMap escape ++ ['"']

mutual
/-- The characters of a value without blanks. -/
def compactChars : Json → List Char
  | .null => "null".toList
  | .bool true => "true".toList
  | .bool false => "false".toList
  | .num n => n.write
  | .str s => quote s.toList
  | .arr items => '[' :: compactItems items ++ [']']
  | .obj fields => '{' :: compactFields fields ++ ['}']

/-- Items with commas between them. -/
def compactItems : List Json → List Char
  | [] => []
  | [item] => compactChars item
  | item :: rest => compactChars item ++ ',' :: compactItems rest

/-- Fields with commas between them. -/
def compactFields : List (String × Json) → List Char
  | [] => []
  | [(key, value)] => quote key.toList ++ ':' :: compactChars value
  | (key, value) :: rest =>
    quote key.toList ++ ':' :: compactChars value ++ ',' :: compactFields rest
end

/-- The compact text of a value. -/
def compact (j : Json) : String :=
  String.ofList (compactChars j)

/-- A line break and the blanks that a level is indented by. -/
def newLine (level : Nat) : List Char :=
  '\n' :: List.replicate (2 * level) ' '

mutual
/-- The characters of a value over lines, at a level of indentation. -/
def prettyChars (level : Nat) : Json → List Char
  | .arr [] => ['[', ']']
  | .arr (item :: rest) => '[' :: prettyItems level (item :: rest) ++ newLine level ++ [']']
  | .obj [] => ['{', '}']
  | .obj (field :: rest) => '{' :: prettyFields level (field :: rest) ++ newLine level ++ ['}']
  | .null => compactChars .null
  | .bool b => compactChars (.bool b)
  | .num n => compactChars (.num n)
  | .str s => compactChars (.str s)

/-- Items, each on its line. -/
def prettyItems (level : Nat) : List Json → List Char
  | [] => []
  | [item] => newLine (level + 1) ++ prettyChars (level + 1) item
  | item :: rest =>
    newLine (level + 1) ++ prettyChars (level + 1) item ++ ',' :: prettyItems level rest

/-- Fields, each on its line. -/
def prettyFields (level : Nat) : List (String × Json) → List Char
  | [] => []
  | [(key, value)] =>
    newLine (level + 1) ++ quote key.toList ++ ':' :: ' ' :: prettyChars (level + 1) value
  | (key, value) :: rest =>
    newLine (level + 1) ++ quote key.toList ++ ':' :: ' ' :: prettyChars (level + 1) value ++
      ',' :: prettyFields level rest
end

/-- The text of a value over lines, without a line break at its end. -/
def pretty (j : Json) : String :=
  String.ofList (prettyChars 0 j)

end CallContract.Json
