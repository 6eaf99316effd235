import OrderDesk.Address

/-!
# Faults of price arithmetic

Why an amount, a price or a swap has no value. The first group leaves the fixed-point domain; the
second refuses an argument before anything is computed.
-/

namespace OrderDesk

inductive Rounding
  | down
  | up
deriving DecidableEq, Repr

inductive PriceFault
  /-- A product over a denominator left the 256-bit words. -/
  | outOfWord (rounding : Rounding) (value : Int)
  | productOverZero (rounding : Rounding)
  | quotientOverZero
  | outOfPrice (value : Int)
  | exceedsLiquidity (token1 : Bool)
  | noPriceOrLiquidity
  | noPrice
  | liquidityUnderflow (tick : Int)
  | tickOutOfRange (tick : Int)
  | priceOutOfRange (price : Int)
  | feeTooHigh (fee : Int)
  | limitOutOfReach (limit : Int) (zeroForOne : Bool)
  | foreignToken (token token0 token1 : Address)
  /-- A plain quotient over zero, as of a tick by a zero spacing. -/
  | zeroDivisor
  | endless
deriving DecidableEq, Repr

namespace PriceFault

def operation : Rounding → String
  | .down => "mul_div"
  | .up => "mul_div_rounding_up"

def message : PriceFault → String
  | .outOfWord rounding value => operation rounding ++ " out of uint256 range: " ++ toString value
  | .productOverZero rounding => operation rounding ++ " by zero"
  | .quotientOverZero => "div_rounding_up by zero"
  | .outOfPrice value => "sqrt price out of uint160 range: " ++ toString value
  | .exceedsLiquidity false => "amount0 exceeds available liquidity"
  | .exceedsLiquidity true => "amount1 exceeds available liquidity"
  | .noPriceOrLiquidity => "zero price or liquidity"
  | .noPrice => "zero sqrt price"
  | .liquidityUnderflow tick => "Liquidity underflow crossing tick " ++ toString tick
  | .tickOutOfRange tick => "Tick " ++ toString tick ++ " out of bounds [-887272, 887272]"
  | .priceOutOfRange price => "sqrt price " ++ toString price ++ " out of bounds"
  | .feeTooHigh fee => "Fee " ++ toString fee ++ " pips too high"
  | .limitOutOfReach limit zeroForOne =>
    "Price limit " ++ toString limit ++ " invalid for a " ++
      (if zeroForOne then "zero-for-one" else "one-for-zero") ++ " swap"
  | .foreignToken token token0 token1 =>
    token.text ++ " is not a token of pool " ++ token0.text ++ "/" ++ token1.text
  | .zeroDivisor => "division by zero"
  | .endless => "the walk over the ticks does not end"

def isOverflow : PriceFault → Bool
  | .outOfWord .. | .productOverZero _ | .quotientOverZero | .outOfPrice _ | .exceedsLiquidity _
  | .noPriceOrLiquidity | .noPrice | .liquidityUnderflow _ => true
  | _ => false

end PriceFault

end OrderDesk
