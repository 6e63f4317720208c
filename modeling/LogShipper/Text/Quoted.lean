import LogShipper.Decimal.Digits
import LogShipper.Text.Hidden

/-!
# Texts quoted in messages

A message that names a text shows it between double quotes on one line, with every character that
could not be told apart or would break the line written as an escape.
-/

namespace LogShipper.Text

/-- One character of a quoted text. -/
def quoteChar (c : Char) : List Char :=
  if c = '\x00' then ['\\', '0']
  else if c = '\t' then ['\\', 't']
  else if c = '\r' then ['\\', 'r']
  else if c = '\n' then ['\\', 'n']
  else if c = '\\' ∨ c = '"' then ['\\', c]
  else if isHidden c then "\\u\x7b".toList ++ Decimal.numeral 16 c.toNat ++ ['}']
  else [c]

/-- The text between double quotes, with escapes. -/
def quoted (s : String) : String :=
  String.ofList ('"' :: (s.toList.flatMap quoteChar ++ ['"']))

end LogShipper.Text
