import OrderDesk.Order.Draft
import OrderDesk.Pipeline
import OrderDesk.Pool.Chain
import OrderDesk.Swap.Simulate
import OrderDesk.Swap.Sizing

/-!
# Generating orders

A top-of-block order that a wallet can pay for: its direction follows from what the wallet holds,
its amounts from a simulated swap of a part of that.

* `Generator.generate` makes and fills such an order.
-/

namespace OrderDesk

structure Generator where
  venue : Venue
  pools : PoolReader
  pipeline : Pipeline
  wallet : Address
  /-- One part in so many of the balance is traded. -/
  fraction : Setting Int
  /-- How many tick spacings the price may move. -/
  spacings : Setting Int

namespace Generator

def usualFraction : Setting Int := .ok 50
def usualSpacings : Setting Int := .ok 5

def make (venue : Venue) (pools : PoolReader) (pipeline : Pipeline) (wallet : Option Address)
    (fraction spacings : Setting Int) : Except Fault Generator :=
  match wallet.or (pipeline.signer?.map (·.address)) with
  | some wallet => .ok { venue, pools, pipeline, wallet, fraction, spacings }
  | none => .error .noSender

def requireSome (token : Address) (balance : Int) : Except Fault Unit :=
  if balance = 0 then .error (.insufficientBalance token 1 0) else .ok ()

structure Trade where
  zeroForOne : Bool
  amountIn : Int
  amountOut : Int
deriving DecidableEq, Repr

def plan (generator : Generator) (pool : Pool) (balance0 balance1 : Int) : Except Fault Trade := do
  let (zeroForOne, converted) ← selectDirection balance0 balance1 pool.sqrtPrice
  let fraction ← generator.fraction
  let amount ← sizedAmount balance0 balance1 converted zeroForOne true fraction
  let spacings ← generator.spacings
  let limit ← targetPrice pool.tick pool.tickSpacing zeroForOne spacings
  let tokenIn := if zeroForOne then pool.token0 else pool.token1
  let (amountIn, amountOut) ← simulate pool tokenIn amount (some limit)
  return { zeroForOne, amountIn, amountOut }

def paddingBounds (amountIn : Int) : Int × Int := (100, max (amountIn / 100) 101)

def draft (generator : Generator) (pool : Pool) (trade : Trade) (amountIn gas block : Int) : Order where
  assetIn := if trade.zeroForOne then pool.token0 else pool.token1
  assetOut := if trade.zeroForOne then pool.token1 else pool.token0
  recipient := .zero
  useInternal := false
  authorization := { Authorization.empty with sender := generator.wallet }
  terms := .topOfBlock {
    quantityIn := amountIn
    quantityOut := trade.amountOut
    maxGas := gas
    validForBlock := block + 1 }

/-- A filled order for the pool of a pair. An estimate of no gas counts as one, and one that is too long
to be written down is refused. -/
def generate (generator : Generator) (token0 token1 : String) : Desk Order := do
  if !generator.venue.hasOrderApi then Desk.fail .noOrderSource
  else
    let block ← Desk.blockNumber
    let (_, pool) ← generator.pools.snapshot token0 token1 (some block) true
    let (cost, _) ← generator.venue.estimateGas false false pool.token0 pool.token1
    let gas := if cost = 0 then 1 else cost
    let balance0 ← tokenBalance pool.token0 generator.wallet (some block)
    let balance1 ← tokenBalance pool.token1 generator.wallet (some block)
    requireSome pool.token0 balance0
    requireSome pool.token1 balance1
    let trade ← generator.plan pool balance0 balance1
    let (low, high) := paddingBounds trade.amountIn
    let padding ← Desk.choose low high
    let order := generator.draft pool trade (trade.amountIn + padding) gas block
    if Digit.fits gas then generator.pipeline.fill generator.venue order
    else Desk.fail .badInteger

end Generator

end OrderDesk
