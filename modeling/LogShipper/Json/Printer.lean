import LogShipper.Json.Basic
import LogShipper.Decimal.Layout

/-!
# Writing JSON

Two forms of one value: compact, without any blank outside strings, and indented by two blanks a
level. A string is escaped no more than the format demands.
-/

namespace LogShipper.Json

/-- Numbers are written plainly from a hundred-thousandth up to sixteen digits before the point. -/
def numberLayout : Decimal.Layout :=
  { plainFrom := -5, plainTo := 15 }

/-- The escape for a character that has one: the quote, the backslash and the control characters
below the blank. -/
def escapeChar (c : Char) : List Char :=
  if c = '"' then ['\\', '"']
  else if c = '\\' then ['\\', '\\']
  else if c = '\x08' then ['\\', 'b']
  else if c = '\t' then ['\\', 't']
  else if c = '\n' then ['\\', 'n']
  else if c = '\x0c' then ['\\', 'f']
  else if c = '\r' then ['\\', 'r']
  else if c.toNat < 0x20 then '\\' :: 'u' :: Decimal.padZeros 4 (Decimal.numeral 16 c.toNat)
  else [c]

/-- A string between quotes. -/
def stringText (s : String) : List Char :=
  '"' :: (s.toList.flatMap escapeChar ++ ['"'])

/-- The text of a value that has no parts. -/
def word (b : Bool) : List Char :=
  if b then "true".toList else "false".toList

mutual

/-- The compact text of a value. -/
def compactChars : Json → List Char
  | .null => "null".toList
  | .bool b => word b
  | .int n => Decimal.integer n
  | .real x => numberLayout.text x
  | .string s => stringText s
  | .array items => '[' :: (compactItems items ++ [']'])
  | .object members => '\x7b' :: (compactMembers members ++ ['\x7d'])

/-- Elements with commas between them. -/
def compactItems : List Json → List Char
  | [] => []
  | [v] => v.compactChars
  | v :: rest => v.compactChars ++ ',' :: compactItems rest

/-- Members with commas between them. -/
def compactMembers : List (String × Json) → List Char
  | [] => []
  | [(k, v)] => stringText k ++ ':' :: v.compactChars
  | (k, v) :: rest => stringText k ++ ':' :: (v.compactChars ++ ',' :: compactMembers rest)

end

/-- The compact text of a value. -/
def compact (v : Json) : String :=
  String.ofList v.compactChars

/-- A line break and the blanks of a level. -/
def newline (level : Nat) : List Char :=
  '\n' :: List.replicate (2 * level) ' '

mutual

/-- The indented text of a value whose first line is already begun at a level. -/
def indentedChars (level : Nat) : Json → List Char
  | .null => "null".toList
  | .bool b => word b
  | .int n => Decimal.integer n
  | .real x => numberLayout.text x
  | .string s => stringText s
  | .array [] => ['[', ']']
  | .array items => '[' :: (indentedItems (level + 1) items ++ newline level ++ [']'])
  | .object [] => ['\x7b', '\x7d']
  | .object members => '\x7b' :: (indentedMembers (level + 1) members ++ newline level ++ ['\x7d'])

/-- Elements on lines of their own. -/
def indentedItems (level : Nat) : List Json → List Char
  | [] => []
  | [v] => newline level ++ v.indentedChars level
  | v :: rest => newline level ++ v.indentedChars level ++ ',' :: indentedItems level rest

/-- Members on lines of their own. -/
def indentedMembers (level : Nat) : List (String × Json) → List Char
  | [] => []
  | [(k, v)] => newline level ++ stringText k ++ ':' :: ' ' :: v.indentedChars level
  | (k, v) :: rest =>
    newline level ++ stringText k ++ ':' :: ' ' :: (v.indentedChars level ++
      ',' :: indentedMembers level rest)

end

/-- The indented text of a value. -/
def indented (v : Json) : String :=
  String.ofList (v.indentedChars 0)

end LogShipper.Json
