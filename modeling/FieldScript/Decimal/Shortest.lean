import FieldScript.Binary64

/-!
# FieldScript.Decimal.Shortest

The shortest decimal that reads back as a given double-precision number.

A positive number is `m · 2^q`.  Every real in an interval around it rounds to it,
and the ends belong to the interval when `m` is even.  Of all decimals in the
interval the shortest is wanted, and of those the nearest.  The grids of multiples
of a power of ten are tried from the coarsest on; a grid has a point in the
interval only if one of the two neighbours of the number on it is such a point, so
two tests settle a grid, in exact arithmetic.
-/

namespace FieldScript

namespace Decimal

/-! ## the interval -/

/-- The reals that round to a positive number, in units of `2^unit`. -/
structure Interval where
  value : Nat
  low : Nat
  high : Nat
  /-- Do the ends belong to it? -/
  closed : Bool
  unit : Int

/-- The weight of the bit above the fraction. -/
def hiddenBit : Nat := 0x10000000000000

/-- The interval of a number with this magnitude (the bits below the sign).  The
unit is a quarter of the last place; below a power of two the numbers lie twice
as close. -/
def Interval.ofMagnitude (magnitude : Nat) : Interval :=
  let fraction := magnitude % hiddenBit
  let biased := magnitude / hiddenBit
  if biased = 0 then
    ⟨4 * fraction, 4 * fraction - 2, 4 * fraction + 2, fraction % 2 == 0, -1076⟩
  else
    let m := hiddenBit + fraction
    let low := if fraction = 0 ∧ 1 < biased then 4 * m - 1 else 4 * m - 2
    ⟨4 * m, low, 4 * m + 2, fraction % 2 == 0, (biased : Int) - 1077⟩

/-! ## one grid -/

/-- The decimal `digits · 10^exponent`. -/
structure Point where
  digits : Nat
  exponent : Int
deriving DecidableEq

/-- The point of a grid that stands for the number: of the two neighbours of the
number the one in the interval, of two the nearer, and of two at one distance the
greater. -/
def Interval.pointOn? (i : Interval) (exponent : Int) : Option Point :=
  let scale := Nat.pow 2 i.unit.toNat * Nat.pow 10 (-exponent).toNat
  let step := Nat.pow 10 exponent.toNat * Nat.pow 2 (-i.unit).toNat
  let value := i.value * scale
  let below := value / step
  let inside (s : Nat) : Bool :=
    if i.closed then i.low * scale ≤ s * step && s * step ≤ i.high * scale
    else i.low * scale < s * step && s * step < i.high * scale
  match inside below, inside (below + 1) with
  | true, true =>
    if value - below * step < (below + 1) * step - value then some ⟨below, exponent⟩
    else some ⟨below + 1, exponent⟩
  | true, false => some ⟨below, exponent⟩
  | false, true => some ⟨below + 1, exponent⟩
  | false, false => none

/-! ## the search -/

/-- The point on the coarsest of `count` grids, each ten times finer than the one
before. -/
def Interval.firstPoint? (i : Interval) : (count : Nat) → (exponent : Int) → Option Point
  | 0, _ => none
  | count + 1, exponent =>
    match i.pointOn? exponent with
    | some point => some point
    | none => i.firstPoint? count (exponent - 1)

/-- A power of ten above the interval: `2^n` has at most `⌈0.30103 · n⌉` digits
before the point. -/
def Interval.topExponent (i : Interval) : Int :=
  (i.unit + (i.value.log2 : Int) + 1) * 30103 / 100000 + 2

/-- The shortest decimal for a positive number of this magnitude.  Twenty-four
grids are enough: seventeen digits tell any two numbers apart, and the first few
grids only lie above the number. -/
def shortest (magnitude : Nat) : Point :=
  let i := Interval.ofMagnitude magnitude
  (i.firstPoint? 24 i.topExponent).getD ⟨0, 0⟩

end Decimal

end FieldScript
