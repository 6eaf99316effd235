import OrderDesk.Price.Rounding

/-!
# Amounts between two prices, and prices an amount reaches

With liquidity `L`, moving the price between `a ≤ b` exchanges `L * 2 ^ 96 * (b - a) / (a * b)` of
token 0 and `L * (b - a) / 2 ^ 96` of token 1.
-/

namespace OrderDesk

def amount0 (rounding : Rounding) (priceA priceB liquidity : Int) : Except PriceFault Int := do
  let low := min priceA priceB
  let high := max priceA priceB
  if low = 0 then .error .noPrice
  else
    let part ← mulDiv rounding (liquidity * q96) (high - low) high
    return rounding.divide part low

def amount1 (rounding : Rounding) (priceA priceB liquidity : Int) : Except PriceFault Int :=
  mulDiv rounding liquidity (max priceA priceB - min priceA priceB) q96

/-- The price after `amount` of token 0 has been added or removed, rounded up. The product of the
amount and the price decides which of two formulas applies: above 256 bits the less exact one. -/
def nextPrice0 (price liquidity amount : Int) (add : Bool) : Except PriceFault Int :=
  if amount = 0 then .ok price
  else
    let scaled := liquidity * q96
    let product := amount * price
    if add then
      if product ≤ wordMax ∧ scaled + product ≤ wordMax then do
        checkPrice (← mulDiv .up scaled price (scaled + product))
      else do
        checkPrice (← divUp scaled ((← divDown scaled price) + amount))
    else if wordMax < product ∨ scaled ≤ product then .error (.exceedsLiquidity false)
    else do
      checkPrice (← mulDiv .up scaled price (scaled - product))

def nextPrice1 (price liquidity amount : Int) (add : Bool) : Except PriceFault Int :=
  if add then do
    checkPrice (price + (← mulDiv .down amount q96 liquidity))
  else do
    let quotient ← mulDiv .up amount q96 liquidity
    if price ≤ quotient then .error (.exceedsLiquidity true) else .ok (price - quotient)

def priceAfterInput (price liquidity amount : Int) (zeroForOne : Bool) : Except PriceFault Int :=
  if price ≤ 0 ∨ liquidity ≤ 0 then .error .noPriceOrLiquidity
  else if zeroForOne then nextPrice0 price liquidity amount true
  else nextPrice1 price liquidity amount true

def priceAfterOutput (price liquidity amount : Int) (zeroForOne : Bool) : Except PriceFault Int :=
  if price ≤ 0 ∨ liquidity ≤ 0 then .error .noPriceOrLiquidity
  else if zeroForOne then nextPrice1 price liquidity amount false
  else nextPrice0 price liquidity amount false

end OrderDesk
