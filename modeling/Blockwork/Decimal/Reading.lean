/-!
# Reading decimals

The numeral of a float is an optional sign, digits with at most one point among them, and an
optional exponent; there is at least one digit before the exponent, and one in it. The words `inf`,
`infinity` and `nan` stand for the floats that are no numbers, in any case of letters. The value is
the float nearest to the decimal.
-/

namespace Blockwork.Number

/-- The number that a run of decimal digits stands for. -/
def ofDigits (cs : List Char) : Nat :=
  cs.foldl (fun n c => 10 * n + (c.toNat - '0'.toNat)) 0

/-- The float nearest to `mantissa · 10 ^ exponent`. A decimal far beyond the range of floats on
either side is infinite or zero. -/
def ofDecimal (mantissa : Nat) (exponent : Int) : Float :=
  -- below the smallest float by far, so that no huge power of ten is computed
  if mantissa = 0 ∨ exponent + mantissa.log2 < -400 then 0
  else if exponent < 0 then OfScientific.ofScientific mantissa true exponent.natAbs
  else if 400 < exponent then 1 / 0
  else OfScientific.ofScientific mantissa false exponent.toNat

/-- An exponent: nothing, or the letter `e`, a sign and digits. -/
def readExponent? : List Char → Option Int
  | [] => some 0
  | c :: cs =>
    if c = 'e' ∨ c = 'E' then
      let (negative, ds) := match cs with
        | '-' :: ds => (true, ds)
        | '+' :: ds => (false, ds)
        | ds => (false, ds)
      if ds.isEmpty || ds.any (!·.isDigit) then none
      else some (if negative then -(ofDigits ds : Int) else ofDigits ds)
    else none

/-- An unsigned numeral. -/
def readUnsigned? (cs : List Char) : Option Float :=
  let word := cs.map Char.toLower
  if word = "inf".toList ∨ word = "infinity".toList then some (1 / 0)
  else if word = "nan".toList then some (0 / 0)
  else
    let whole := cs.takeWhile Char.isDigit
    let (fraction, rest) := match cs.dropWhile Char.isDigit with
      | '.' :: rest => (rest.takeWhile Char.isDigit, rest.dropWhile Char.isDigit)
      | rest => ([], rest)
    if whole.isEmpty && fraction.isEmpty then none
    else (readExponent? rest).map fun exponent =>
      ofDecimal (ofDigits (whole ++ fraction)) (exponent - fraction.length)

/-- A numeral with an optional sign. -/
def read? : List Char → Option Float
  | '-' :: cs => (readUnsigned? cs).map (- ·)
  | '+' :: cs => readUnsigned? cs
  | cs => readUnsigned? cs

/-- The float that a text stands for; "not a number" if it is no numeral. -/
def read (s : String) : Float :=
  (read? s.toList).getD (0 / 0)

end Blockwork.Number
