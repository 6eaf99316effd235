import OrderDesk.Pool.Basic
import OrderDesk.Price.Amount

/-!
# How large a trade a wallet makes

Rules of thumb that turn two balances and a price into a direction, an amount and a price limit.
-/

namespace OrderDesk

def valueInToken1 (amount sqrtPrice : Int) : Except PriceFault Int :=
  mulDiv .down amount (sqrtPrice * sqrtPrice) (2 ^ 192)

/-- Sell token 0 if it is worth more than the balance of token 1; with that worth. -/
def selectDirection (balance0 balance1 sqrtPrice : Int) : Except PriceFault (Bool × Int) := do
  let converted ← valueInToken1 balance0 sqrtPrice
  return (decide (balance1 < converted), converted)

/-- One part in `fraction` of the input balance: positive for exact input, negative for exact
output. -/
def sizedAmount (balance0 balance1 converted : Int) (zeroForOne exactIn : Bool) (fraction : Int) :
    Except PriceFault Int := do
  if exactIn then divDown (if zeroForOne then balance0 else balance1) fraction
  else return -(← divDown (if zeroForOne then converted else balance1) fraction)

/-- The price `spacings` spacings away from a tick in the trade direction. -/
def targetPrice (tick tickSpacing : Int) (zeroForOne : Bool) (spacings : Int) :
    Except PriceFault Int :=
  let offset := spacings * tickSpacing
  priceAt (clampTick (if zeroForOne then tick - offset else tick + offset))

end OrderDesk
