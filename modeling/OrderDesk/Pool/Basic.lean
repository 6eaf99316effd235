import OrderDesk.Block
import OrderDesk.Pool.Bitmap

/-!
# Pools

What a pool is known by, and a snapshot of its state at one block.
-/

namespace OrderDesk

structure PoolKey where
  currency0 : Address
  currency1 : Address
  fee : Int
  tickSpacing : Int
  hooks : Address
deriving DecidableEq, Repr

structure Slot0 where
  sqrtPrice : Int
  tick : Int
  protocolFee : Int
  lpFee : Int
deriving DecidableEq, Repr

structure TickRow where
  initialized : Bool
  tick : Int
  liquidityGross : Int
  liquidityNet : Int
deriving DecidableEq, Repr

/-- The ticks at which liquidity changes, with the change on an upward crossing. -/
abbrev TickChanges := Table Int Int

structure Pool where
  token0 : Address
  token1 : Address
  tick : Int
  tickSpacing : Int
  sqrtPrice : Int
  liquidity : Int
  ticks : TickChanges
  bitmap : Bitmap
  feePips : Int
  id : Bytes
  block : Option BlockName
deriving DecidableEq, Repr

namespace Pool

/-- Completes a snapshot: without a bitmap, one is made from the ticks. -/
def complete (pool : Pool) : Except PriceFault Pool :=
  if pool.ticks.isEmpty ∨ ¬ pool.bitmap.isEmpty then .ok pool
  else do
    return { pool with bitmap := ← Bitmap.ofTicks pool.tickSpacing (pool.ticks.map (·.1)) }

def isToken0 (pool : Pool) (token : Address) : Except PriceFault Bool :=
  if token = pool.token0 then .ok true
  else if token = pool.token1 then .ok false
  else .error (.foreignToken token pool.token0 pool.token1)

end Pool

def sortTokens (a b : Address) : Address × Address :=
  if a.val < b.val then (a, b) else (b, a)

end OrderDesk
