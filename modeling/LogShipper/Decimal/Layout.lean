import LogShipper.Decimal.Shortest

/-!
# Layouts of decimal numbers

Where the digits of a number are known, a layout decides whether they are written plainly or with
an exponent.
-/

namespace LogShipper.Decimal

/-- A layout writes a number plainly when the exponent of its first digit lies between two bounds,
both included, and with a signed exponent otherwise. -/
structure Layout where
  plainFrom : Int
  plainTo : Int

/-- A plain number has at least one digit on both sides of the point. -/
def plain (ds : List Char) (exponent : Int) : List Char :=
  if exponent < 0 then "0.".toList ++ List.replicate (-exponent - 1).toNat '0' ++ ds
  else
    let whole := exponent.toNat + 1
    if ds.length ≤ whole then ds ++ List.replicate (whole - ds.length) '0' ++ ['.', '0']
    else ds.take whole ++ '.' :: ds.drop whole

/-- One digit, the others after a point if there are any, and the exponent with its sign. -/
def withExponent (ds : List Char) (exponent : Int) : List Char :=
  let sign := if exponent < 0 then '-' else '+'
  let fraction := if ds.length ≤ 1 then [] else '.' :: ds.drop 1
  ds.take 1 ++ fraction ++ 'e' :: sign :: digits exponent.natAbs

/-- The text of a number of the binary format, with the fewest digits. -/
def Layout.text (layout : Layout) (x : Binary64) : List Char :=
  let s := x.shortest
  let ds := digits s.significand
  let exponent := s.exponent + ds.length - 1
  let body :=
    if layout.plainFrom ≤ exponent ∧ exponent ≤ layout.plainTo then plain ds exponent
    else withExponent ds exponent
  if x.negative then '-' :: body else body

end LogShipper.Decimal
