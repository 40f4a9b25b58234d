import Blockwork.Decimal.Dyadic

/-!
# The grid

Roots stand on the points of a grid. A coordinate goes to the nearest grid line, and one in the
middle between two lines to the greater. Coordinates are kept within 64 bits.
-/

namespace Blockwork

/-- The distance of two neighbouring grid lines. -/
def gridSize : Float := 40

/-- The grid line nearest to a coordinate. -/
def snapToGrid (x : Float) : Int64 :=
  Int64.ofInt <| Number.truncateWithin Int64.minValue.toInt Int64.maxValue.toInt
    (Number.floor (x / gridSize + 0.5) * gridSize)

end Blockwork
