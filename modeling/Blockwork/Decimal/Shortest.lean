import Blockwork.Decimal.Dyadic

/-!
# The shortest decimal that reads back

A float stands for every real number that rounds to it, an interval around its value. Among the
decimals in that interval, `Shortest.ofFloat` finds one of the fewest digits, and among those the
nearest to the value. It walks over the powers of ten from above: on the grid of the multiples of
`10 ^ k` only the two neighbours of the value need to be tried, because if any multiple lies in the
interval then one of the neighbours does.

`Number.toDecimal` writes those digits in positional notation, with no exponent and with no point
for a whole number.
-/

namespace Blockwork

/-- The decimal `digits · 10 ^ exponent`. -/
structure Shortest where
  digits : Nat
  exponent : Int
deriving Repr, DecidableEq

namespace Shortest

/-- The interval of a positive float, in quarters of its last binary place: the value is
`4 · mantissa` quarters, the interval ends half a place above it and half a place below. Below a
power of two the places are half as wide, so the lower end is nearer there. The ends belong to the
interval when the mantissa is even. -/
structure Interval where
  low : Nat
  value : Nat
  high : Nat
  closed : Bool
  exponent : Int

/-- The interval of a positive dyadic number that comes from a float. -/
def Interval.of (d : Dyadic) : Interval :=
  { low := if d.mantissa = Nat.pow 2 52 ∧ -1074 < d.exponent then 4 * d.mantissa - 1
      else 4 * d.mantissa - 2
    value := 4 * d.mantissa
    high := 4 * d.mantissa + 2
    closed := d.mantissa % 2 == 0
    exponent := d.exponent - 2 }

/-- The multiple of `10 ^ k` in the interval that is nearest to the value, if there is one. Of two
equally near ones it is the greater. -/
def Interval.nearest? (i : Interval) (k : Int) : Option Nat :=
  let scale := Nat.pow 2 i.exponent.toNat * Nat.pow 10 (-k).toNat
  let unit := Nat.pow 2 (-i.exponent).toNat * Nat.pow 10 k.toNat
  -- both sides of every comparison are scaled, so that all numbers are whole
  let value := i.value * scale
  let below := value / unit
  let fitsBelow :=
    if i.closed then i.low * scale ≤ below * unit else i.low * scale < below * unit
  let above := below + 1
  let fitsAbove :=
    if i.closed then above * unit ≤ i.high * scale else above * unit < i.high * scale
  match decide fitsBelow, decide fitsAbove with
  | true, true => some (if value - below * unit < above * unit - value then below else above)
  | true, false => some below
  | false, true => some above
  | false, false => none

/-- The first hit on the grids `10 ^ k`, `10 ^ (k - 1)`, … -/
def Interval.search (i : Interval) : Nat → Int → Shortest
  | 0, k => ⟨i.value, k⟩
  | n + 1, k =>
    match i.nearest? k with
    | some digits => ⟨digits, k⟩
    | none => i.search n (k - 1)

/-- The shortest decimal of a positive float. The search starts above the value, at a power of ten
that is estimated from its binary logarithm, and seventeen digits always suffice. -/
def ofDyadic (d : Dyadic) : Shortest :=
  let i := Interval.of d
  -- 1233 / 4096 is close to the decimal logarithm of two, and two more make up for it
  let top := ((d.mantissa.log2 : Int) + 1 + d.exponent) * 1233 / 4096 + 2
  i.search 24 top

end Shortest

namespace Number

/-- The decimal digits of a natural number. -/
def digits (n : Nat) : List Char :=
  Nat.toDigits 10 n

/-- The text of a decimal in positional notation. -/
def positional (s : Shortest) : List Char :=
  let ds := digits s.digits
  if 0 ≤ s.exponent then ds ++ List.replicate s.exponent.toNat '0'
  else
    let places := (-s.exponent).toNat
    if places < ds.length then
      ds.take (ds.length - places) ++ '.' :: ds.drop (ds.length - places)
    else
      '0' :: '.' :: List.replicate (places - ds.length) '0' ++ ds

/-- The shortest decimal that reads back to the float, in positional notation; `NaN`, `inf` and
`-inf` for the floats that are no numbers. -/
def toDecimal (x : Float) : String :=
  if x.isNaN then "NaN"
  else if x.isInf then if x < 0 then "-inf" else "inf"
  else
    let d := Dyadic.ofFloat x
    let text := if d.mantissa = 0 then ['0'] else positional (Shortest.ofDyadic d)
    String.ofList (if d.negative then '-' :: text else text)

/-- The nearest whole number, without a point. -/
def toRounded (x : Float) : String :=
  if x.isNaN then "NaN"
  else if x.isInf then if x < 0 then "-inf" else "inf"
  else
    let d := Dyadic.ofFloat x
    let text := digits d.roundedMagnitude
    String.ofList (if d.negative then '-' :: text else text)

end Number

end Blockwork
