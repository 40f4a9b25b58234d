/-!
# Floats as dyadic rationals

A finite float is `± m · 2 ^ q` for a natural number `m` and an integer `q`. `Dyadic.ofFloat` reads
the three parts off the bits, `Dyadic.toFloat` puts them together again, and everything that needs
the exact value of a float is computed on the parts: the integer below it, the integer nearest to
it, whether it is whole, and the remainder of a division.
-/

namespace Blockwork

/-- The rational number `± mantissa · 2 ^ exponent`. -/
structure Dyadic where
  negative : Bool
  mantissa : Nat
  exponent : Int
deriving Repr, DecidableEq

namespace Dyadic

/-- The parts of a finite float. A float whose exponent field is zero has no hidden bit. -/
def ofFloat (x : Float) : Dyadic :=
  let bits : Nat := x.toBits.toNat
  let field : Nat := bits / Nat.pow 2 52 % Nat.pow 2 11
  let fraction : Nat := bits % Nat.pow 2 52
  { negative := bits / Nat.pow 2 63 == 1
    mantissa := if field = 0 then fraction else Nat.pow 2 52 + fraction
    exponent := if field = 0 then -1074 else (field : Int) - 1075 }

/-- The float with these parts. The value is kept whenever some float has it; otherwise the digits
that do not fit are dropped. -/
def toFloat (d : Dyadic) : Float :=
  let sign := if d.negative then Nat.pow 2 63 else 0
  if d.mantissa = 0 then Float.ofBits (UInt64.ofNat sign)
  else
    -- the exponent that leaves 53 binary digits, or as many as the smallest exponent allows
    let exponent := max (d.exponent + d.mantissa.log2 - 52) (-1074)
    let mantissa :=
      if exponent ≤ d.exponent then d.mantissa * Nat.pow 2 (d.exponent - exponent).toNat
      else d.mantissa / Nat.pow 2 (exponent - d.exponent).toNat
    let field := if mantissa < Nat.pow 2 52 then 0 else (exponent + 1075).toNat
    Float.ofBits (UInt64.ofNat (sign + field * Nat.pow 2 52 + mantissa % Nat.pow 2 52))

/-- The sign of the number, applied to a magnitude. -/
def signed (d : Dyadic) (n : Nat) : Int :=
  if d.negative then -(n : Int) else n

/-- The integer part of the magnitude. -/
def magnitude (d : Dyadic) : Nat :=
  if 0 ≤ d.exponent then d.mantissa * Nat.pow 2 d.exponent.toNat
  else d.mantissa / Nat.pow 2 (-d.exponent).toNat

/-- Whether the number is an integer. -/
def isWhole (d : Dyadic) : Bool :=
  0 ≤ d.exponent || d.mantissa % Nat.pow 2 (-d.exponent).toNat == 0

/-- The number cut to an integer, towards zero. -/
def truncate (d : Dyadic) : Int :=
  d.signed d.magnitude

/-- The greatest integer that is not above the number. -/
def floor (d : Dyadic) : Int :=
  if d.negative && !d.isWhole then -((d.magnitude : Int) + 1) else d.truncate

/-- The magnitude of the integer nearest to the number, a half going to the even neighbour. -/
def roundedMagnitude (d : Dyadic) : Nat :=
  if 0 ≤ d.exponent then d.magnitude
  else
    let unit := Nat.pow 2 (-d.exponent).toNat
    let below := d.mantissa / unit
    let rest := 2 * (d.mantissa % unit)
    if rest < unit ∨ rest = unit ∧ below % 2 = 0 then below else below + 1

/-- The remainder of dividing the one number by the other, with the sign of the dividend. -/
def remainder (x y : Dyadic) : Dyadic :=
  let exponent := min x.exponent y.exponent
  let a := x.mantissa * Nat.pow 2 (x.exponent - exponent).toNat
  let b := y.mantissa * Nat.pow 2 (y.exponent - exponent).toNat
  { negative := x.negative, mantissa := a % b, exponent }

end Dyadic

/-! ### Operations on floats -/

namespace Number

/-- The remainder of a division that is cut towards zero; the result has the sign of the
dividend. -/
def remainder (x y : Float) : Float :=
  if x.isNaN || y.isNaN || x.isInf || y == 0 then 0 / 0
  else if y.isInf then x
  else ((Dyadic.ofFloat x).remainder (Dyadic.ofFloat y)).toFloat

/-- The float cut to an integer, kept within the given bounds; the integer of "not a number" is
zero. -/
def truncateWithin (low high : Int) (x : Float) : Int :=
  if x.isNaN then 0
  else if x.isInf then if x < 0 then low else high
  else max low (min high (Dyadic.ofFloat x).truncate)

/-- The greatest whole float that is not above the given one. -/
def floor (x : Float) : Float :=
  if x.isNaN || x.isInf || (Dyadic.ofFloat x).isWhole then x
  else Float.ofInt (Dyadic.ofFloat x).floor

end Number

end Blockwork
