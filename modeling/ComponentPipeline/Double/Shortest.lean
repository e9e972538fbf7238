import ComponentPipeline.Double.Basic

/-!
# The shortest decimal of a double

A decimal reads back as a double if it lies between the halfway points to the
two neighbouring doubles; a halfway point itself reads back if the mantissa is
even.  Below a power of two the neighbour is only half as far away.

Of the decimals that read back the shortest one is taken.  Decimals of one
length lie on a grid, so it is enough to look at the two points of the grid
around the double, on ever finer grids.  If both read back the nearer one is
taken, and of two equally near ones the even one.
-/

namespace ComponentPipeline
namespace Double

/-- Whether the double below is half as far away as the double above. -/
def isNarrowBelow (number : Double) : Bool :=
  number.mantissa == Nat.pow 2 52 && leastExponent < number.exponent

/-- A double as a quotient, in units of the given power of ten. -/
def inUnits (number : Double) (power : Int) : Nat × Nat :=
  (number.mantissa * Nat.pow 2 number.exponent.toNat * Nat.pow 10 (-power).toNat,
    Nat.pow 2 (-number.exponent).toNat * Nat.pow 10 power.toNat)

/-- Whether so many units of the given power of ten read back as a double. -/
def readsBack (number : Double) (power : Int) (count : Nat) : Bool :=
  let (numerator, denominator) := number.inUnits power
  let quarters := 4 * number.mantissa
  let low := numerator * (quarters - if number.isNarrowBelow then 1 else 2)
  let high := numerator * (quarters + 2)
  let written := count * denominator * quarters
  if number.mantissa % 2 = 0 then low ≤ written && written ≤ high
  else low < written && written < high

/-- The count of units of the given power of ten that reads back as a double,
if one does and a unit is not more than the double. -/
def onGrid? (number : Double) (power : Int) : Option Nat :=
  let (numerator, denominator) := number.inUnits power
  let below := numerator / denominator
  if below = 0 then none
  else if number.readsBack power below then
    if number.readsBack power (below + 1) then some (nearest numerator denominator)
    else some below
  else if number.readsBack power (below + 1) then some (below + 1)
  else none

/-- The powers of ten of the grids, from coarse to fine. -/
def gridPowers : List Int :=
  (List.range 633).map fun (step : Nat) => (308 : Int) - step

/-- The shortest decimal of a double: how many units of which power of ten.
Zero is no units. -/
def shortest (number : Double) : Nat × Int :=
  (gridPowers.findSome? fun power =>
    (number.onGrid? power).map fun count => (count, power)).getD (0, 0)

end Double
end ComponentPipeline
