import LogShipper.Decimal.Binary64
import LogShipper.Decimal.Digits

/-!
# Fewest digits

A number of the binary format is written with the fewest decimal digits that no other number of
the format is nearer to. For each count of digits the two neighbours of the number on that decimal
grid are tried, in exact arithmetic.
-/

namespace LogShipper.Decimal

/-- The decimal number `significand * 10 ^ exponent`. -/
structure Scientific where
  significand : Nat
  exponent : Int
deriving DecidableEq, Repr

/-- The significand without the zeros at its end, at most `fuel` of them. -/
def Scientific.dropZeros : Nat → Scientific → Scientific
  | 0, x => x
  | fuel + 1, x =>
    if x.significand ≠ 0 ∧ x.significand % 10 = 0 then
      dropZeros fuel { significand := x.significand / 10, exponent := x.exponent + 1 }
    else x

namespace Binary64

/-- The reals that are rounded to a positive number of the format: from `low / den` to
`high / den`, around `value / den`. The ends belong to it when the mantissa is even. -/
structure Interval where
  low : Nat
  value : Nat
  high : Nat
  den : Nat
  closed : Bool

/-- The lower half gap is smaller at a power of two, where the format becomes finer below. -/
def interval (x : Binary64) : Interval :=
  let gap := if x.mantissa = Nat.pow 2 52 ∧ minExponent < x.exponent then 1 else 2
  let (unit, den) := scaleRatio 1 1 (x.exponent - 2)
  { low := (4 * x.mantissa - gap) * unit, value := 4 * x.mantissa * unit
    high := (4 * x.mantissa + 2) * unit, den, closed := x.mantissa % 2 == 0 }

/-- The interval holds `c * 10 ^ k`, where the power of ten is given as a ratio. -/
def Interval.holds (i : Interval) (c tenNum tenDen : Nat) : Bool :=
  let p := c * tenNum * i.den
  if i.closed then i.low * tenDen ≤ p && p ≤ i.high * tenDen
  else i.low * tenDen < p && p < i.high * tenDen

/-- The power `10 ^ k` as a ratio. -/
def tenPower (k : Int) : Nat × Nat :=
  if 0 ≤ k then (Nat.pow 10 k.toNat, 1) else (1, Nat.pow 10 (-k).toNat)

/-- The largest `e` with `10 ^ e ≤ num / den`, looked for upward from `e` in at most `fuel`
steps. -/
def decimalExponentFrom (num den : Nat) : Nat → Int → Int
  | 0, e => e
  | fuel + 1, e =>
    let (p, q) := tenPower (e + 1)
    if p * den ≤ num * q then decimalExponentFrom num den fuel (e + 1) else e

/-- The largest `e` with `10 ^ e ≤ num / den`, for a positive ratio. A power of two has a little
more than three tenths of a decimal place for each bit. -/
def decimalExponent (num den : Nat) : Int :=
  decimalExponentFrom num den 4 (((num.log2 : Int) - (den.log2 : Int) - 1) * 30103 / 100000 - 1)

/-- The neighbour on the grid of `10 ^ k` that lies in the interval; of two the nearer, and of two
equally near ones the even. -/
def onGrid? (i : Interval) (k : Int) : Option Scientific :=
  let (p, q) := tenPower k
  let c := i.value * q / (i.den * p)
  let below := i.holds c p q
  let above := i.holds (c + 1) p q
  -- twice the distance from the lower neighbour, against the width of the grid
  let twice := 2 * (i.value * q - c * p * i.den)
  let width := p * i.den
  if below && (!above || twice < width || (twice == width && c % 2 == 0)) then some ⟨c, k⟩
  else if above then some ⟨c + 1, k⟩
  else none

/-- The shortest decimal in the interval of a positive number. Seventeen digits always suffice. -/
def shortest (x : Binary64) : Scientific :=
  if x.isZero then ⟨0, 0⟩ else
    let i := x.interval
    let e := decimalExponent i.value i.den
    let found := (List.range 17).findSome? fun (n : Nat) => onGrid? i (e - (n : Int))
    (found.getD ⟨x.mantissa, 0⟩).dropZeros 20

end Binary64

end LogShipper.Decimal
