import OrderDesk.Price.Amount

/-!
# One step of a swap

A step trades against one range of constant liquidity, from the current price towards a target. A
positive amount is input still to be spent, a negative one output still to be bought. Token 0 comes
in when the price falls.
-/

namespace OrderDesk

def pipsDenominator : Int := 1000000

def paidIn (zeroForOne : Bool) (priceA priceB liquidity : Int) : Except PriceFault Int :=
  if zeroForOne then amount0 .up priceA priceB liquidity else amount1 .up priceA priceB liquidity

def paidOut (zeroForOne : Bool) (priceA priceB liquidity : Int) : Except PriceFault Int :=
  if zeroForOne then amount1 .down priceA priceB liquidity
  else amount0 .down priceA priceB liquidity

structure SwapStep where
  price : Int
  amountIn : Int
  amountOut : Int
  fee : Int
deriving DecidableEq, Repr

/-- The price at which a step ends: the target if the amount reaches it. -/
def stepPrice (current target liquidity remaining fee : Int) : Except PriceFault Int := do
  let zeroForOne := decide (target ≤ current)
  if 0 ≤ remaining then
    let spendable ← mulDiv .down remaining (pipsDenominator - fee) pipsDenominator
    let needed ← paidIn zeroForOne target current liquidity
    if needed ≤ spendable then return target
    else priceAfterInput current liquidity spendable zeroForOne
  else
    let offered ← paidOut zeroForOne target current liquidity
    if offered ≤ -remaining then return target
    else priceAfterOutput current liquidity (-remaining) zeroForOne

/-- One step from `current` towards `target`. An exact-input step that stops short of the target
spends all that remains, the fee being what the input leaves over. -/
def swapStep (current target liquidity remaining fee : Int) : Except PriceFault SwapStep := do
  if pipsDenominator ≤ fee then .error (.feeTooHigh fee)
  else
    let zeroForOne := decide (target ≤ current)
    let price ← stepPrice current target liquidity remaining fee
    let amountIn ← paidIn zeroForOne price current liquidity
    let amountOut ← paidOut zeroForOne price current liquidity
    let amountOut := if remaining < 0 then min amountOut (-remaining) else amountOut
    if 0 ≤ remaining ∧ price ≠ target then
      return ⟨price, amountIn, amountOut, remaining - amountIn⟩
    else
      return ⟨price, amountIn, amountOut, ← mulDiv .up amountIn fee (pipsDenominator - fee)⟩

end OrderDesk
