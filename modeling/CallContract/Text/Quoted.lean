import CallContract.Decimal.Numeral
import CallContract.Text.Hidden

/-!
# Quotations in messages

A quotation shows a text between quotes so that every character can be told: quotes and backslashes
get a backslash, line breaks, tabs and NUL an escape of one letter, and hidden characters their
number in hexadecimal, as `\u{301}`.
-/

namespace CallContract.Text

/-- The hexadecimal numeral of a number in lower case. -/
def hexNumeral (n : Nat) : List Char :=
  let digit (d : Nat) : Char := if d < 10 then Char.ofNat (48 + d) else Char.ofNat (87 + d)
  if n < 16 then [digit n] else hexNumeral (n / 16) ++ [digit (n % 16)]

/-- A character inside a quotation. -/
def quoteChar (c : Char) : List Char :=
  if c = '"' then ['\\', '"']
  else if c = '\\' then ['\\', '\\']
  else if c = '\n' then ['\\', 'n']
  else if c = '\r' then ['\\', 'r']
  else if c = '\t' then ['\\', 't']
  else if c.toNat = 0 then ['\\', '0']
  else if c.toNat < 0x20 || (0x7E < c.toNat && isHidden c) then
    ['\\', 'u', '\x7b'] ++ hexNumeral c.toNat ++ ['\x7d']
  else [c]

/-- The quotation of a text. -/
def quoted (s : String) : String :=
  String.ofList ('"' :: s.toList.flatMap quoteChar ++ ['"'])

end CallContract.Text
