/-!
# Numbers of the 64-bit binary format

A finite number of the format is a sign, a mantissa below `2 ^ 53` and a power of two. Products and
quotients are exact ratios of naturals that are rounded once, to the nearest number of the format
and to the even mantissa when two are equally near.
-/

namespace LogShipper.Decimal

/-- The number `mantissa * 2 ^ exponent` with a sign; zero has a sign too. Numbers that `nearest?`
gives are in the format: the mantissa has 53 bits, or fewer at the smallest exponent. -/
structure Binary64 where
  negative : Bool
  mantissa : Nat
  exponent : Int
deriving DecidableEq, Repr

namespace Binary64

/-- The exponent of the smallest positive number of the format. -/
def minExponent : Int := -1074

/-- The exponent of the numbers next to the upper end of the format. -/
def maxExponent : Int := 971

/-- The zero of the given sign. -/
def zero (negative : Bool) : Binary64 :=
  { negative, mantissa := 0, exponent := minExponent }

def isZero (x : Binary64) : Bool :=
  x.mantissa == 0

/-- The same number with the given sign. -/
def withSign (x : Binary64) (negative : Bool) : Binary64 :=
  { x with negative }

/-- The quotient rounded to the nearest natural, a half going to the even one. -/
def roundQuotient (num den : Nat) : Nat :=
  let q := num / den
  let r := num % den
  if 2 * r < den then q
  else if den < 2 * r then q + 1
  else if q % 2 = 0 then q else q + 1

/-- The ratio `num / den * 2 ^ shift` with the power of two moved to one of the two sides. -/
def scaleRatio (num den : Nat) (shift : Int) : Nat × Nat :=
  if 0 ≤ shift then (num * Nat.pow 2 shift.toNat, den) else (num, den * Nat.pow 2 (-shift).toNat)

/-- The largest `e` with `2 ^ e ≤ num / den`, for a positive ratio. -/
def binaryExponent (num den : Nat) : Int :=
  let e : Int := (num.log2 : Int) - (den.log2 : Int)
  let (n, d) := scaleRatio num den (-e)
  if d ≤ n then e else e - 1

/-- The number of the format that is nearest to `num / den`; none when that lies beyond its upper
end. -/
def nearest? (num den : Nat) : Option Binary64 :=
  if num = 0 then some (zero false) else
    let e := max (binaryExponent num den - 52) minExponent
    let (n, d) := scaleRatio num den (-e)
    let m := roundQuotient n d
    let (m, e) := if m = Nat.pow 2 53 then (Nat.pow 2 52, e + 1) else (m, e)
    if maxExponent < e then none else some { negative := false, mantissa := m, exponent := e }

/-- The product of two magnitudes, rounded. -/
def mul? (x y : Binary64) : Option Binary64 :=
  let (n, d) := scaleRatio (x.mantissa * y.mantissa) 1 (x.exponent + y.exponent)
  nearest? n d

/-- The quotient of two magnitudes, rounded. The divisor is not zero. -/
def div? (x y : Binary64) : Option Binary64 :=
  let (n, d) := scaleRatio x.mantissa y.mantissa (x.exponent - y.exponent)
  nearest? n d

end Binary64

end LogShipper.Decimal
