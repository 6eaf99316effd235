import OrderDesk.Price.Rounding

/-!
# Fee growth

Fees are accounted as growth per unit of liquidity, in numbers that are scaled by `2 ^ 128` and
counted in a circle of `2 ^ 256`. The growth inside of a range follows from the growth of the whole
pool and that outside of the two ends.
-/

namespace OrderDesk

structure GrowthReadings where
  whole : Int
  lowerOutside : Int
  upperOutside : Int
deriving DecidableEq, Repr

/-- The growth inside of the range from `lower` up to, not including, `upper`. -/
def growthInside (tick lower upper : Int) (readings : GrowthReadings) : Int :=
  let inside :=
    if tick < lower then readings.lowerOutside - readings.upperOutside
    else if upper ≤ tick then readings.upperOutside - readings.lowerOutside
    else readings.whole - readings.lowerOutside - readings.upperOutside
  inside % wordCount

/-- What liquidity has earned between two readings of the growth inside of its range. -/
def feesFromGrowth (now last liquidity : Int) : Except PriceFault Int :=
  mulDiv .down ((now - last) % wordCount) liquidity q128

end OrderDesk
