/-!
# Numerals

Natural numbers and integers in positional notation, as lists of characters, and the value of a
list of decimal digits.
-/

namespace LogShipper.Decimal

/-- The character of a digit below sixteen. Letters are small. -/
def digitChar (d : Nat) : Char :=
  if d < 10 then Char.ofNat (d + 48) else Char.ofNat (d + 87)

/-- The numeral of `n` in a base from two to sixteen, at most `fuel` digits of it. -/
def numeralWithin (base : Nat) : Nat → Nat → List Char
  | 0, _ => []
  | fuel + 1, n =>
    if n < base then [digitChar n]
    else numeralWithin base fuel (n / base) ++ [digitChar (n % base)]

/-- The numeral of `n`, without leading zeros. No base needs more digits than the number has
bits. -/
def numeral (base n : Nat) : List Char :=
  numeralWithin base (n.log2 + 1) n

/-- The decimal numeral of `n`. -/
def digits (n : Nat) : List Char :=
  numeral 10 n

/-- The decimal numeral of an integer: a minus sign stands before a negative one. -/
def integer : Int → List Char
  | .ofNat n => digits n
  | .negSucc n => '-' :: digits (n + 1)

/-- The text `s` with zeros in front up to `width` characters. -/
def padZeros (width : Nat) (s : List Char) : List Char :=
  List.replicate (width - s.length) '0' ++ s

/-- The value of a decimal digit. -/
def digitValue (c : Char) : Nat :=
  c.toNat - 48

/-- The number that a list of decimal digits stands for. -/
def ofDigits (s : List Char) : Nat :=
  s.foldl (fun n c => 10 * n + digitValue c) 0

/-- The value of a hexadecimal digit in either case. -/
def hexValue? (c : Char) : Option Nat :=
  if c.isDigit then some (c.toNat - 48)
  else if 'a' ≤ c ∧ c ≤ 'f' then some (c.toNat - 87)
  else if 'A' ≤ c ∧ c ≤ 'F' then some (c.toNat - 55)
  else none

end LogShipper.Decimal
