import FieldScript.Decimal.Shortest

/-!
# FieldScript.Decimal.Layout

How decimals are written.

A decimal is written with a point as long as its leading digit stands in a certain
span of places, and otherwise with an exponent.  The choices of a notation are one
record, `Layout`, and the notation of numbers in this language is `Layout.plain`.
-/

namespace FieldScript

namespace Decimal

/-- The choices of a notation for decimals. -/
structure Layout where
  /-- The least power of ten that is written with a point. -/
  lowest : Int
  /-- The least power of ten, above those, that is written with an exponent. -/
  highest : Int
  point : Char
  exponentMark : Char
  /-- What follows the digits of a whole number. -/
  wholeEnd : String

/-- Powers of ten from `10^-4` up to `10^15` are written with a point, and a whole
number ends in a point and a zero. -/
def Layout.plain : Layout where
  lowest := -4
  highest := 16
  point := '.'
  exponentMark := 'e'
  wholeEnd := ".0"

namespace Layout

/-- The digits `ds`, of which the first stands for `10^power`, with a point. -/
def positional (l : Layout) (ds : List Char) (power : Int) : List Char :=
  if power < 0 then
    '0' :: l.point :: (List.replicate (-power - 1).toNat '0' ++ ds)
  else
    let whole := power.toNat + 1
    if ds.length ≤ whole then
      ds ++ List.replicate (whole - ds.length) '0' ++ l.wholeEnd.toList
    else ds.take whole ++ l.point :: ds.drop whole

/-- The same with an exponent. -/
def scientific (l : Layout) (ds : List Char) (power : Int) : List Char :=
  let mantissa := if ds.length ≤ 1 then ds else ds.take 1 ++ l.point :: ds.drop 1
  mantissa ++ l.exponentMark :: (toString power).toList

/-- A positive decimal in this notation. -/
def write (l : Layout) (p : Point) : List Char :=
  let ds := Nat.toDigits 10 p.digits
  let power := p.exponent + ds.length - 1
  if l.lowest ≤ power ∧ power < l.highest then l.positional ds power
  else l.scientific ds power

end Layout

end Decimal

/-- The text of a number: the shortest digits that read back as it, and a sign
also on a negative zero. -/
def Binary64.text (x : Binary64) : String :=
  if x.isNaN then "NaN"
  else
    let unsigned : List Char :=
      if x.isInfinite then "inf".toList
      else if x.isZero then "0.0".toList
      else Decimal.Layout.plain.write (Decimal.shortest x.magnitude)
    String.ofList (if x.isNegative then '-' :: unsigned else unsigned)

end FieldScript
